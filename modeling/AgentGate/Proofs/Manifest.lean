import AgentGate.Handler.Step
import AgentGate.Manifest.Check
import AgentGate.Proofs.Table

/-!
# The environments of handlers fit their manifests

A manifest is written down apart from the handler whose environment it describes. The variables that
a handler sets do not depend on its settings, only whether they have a value does; so the two tables
are compared once for each type.

- `EnvManifest.check_eq_ok_iff`: an environment fits when its variables lie between the required and
  the listed ones.
- `HandlerStep.mem_keys_envOf`: the variables in the environment of a handler.
- `HandlerStep.check_envOf`: they fit, whatever the settings and the context are.
-/

namespace AgentGate

namespace EnvManifest

variable {manifest : EnvManifest} {env : Table String} {name : String}

theorem var?_isNone_iff : (manifest.var? name).isNone = true
    ↔ name ∉ manifest.vars.map EnvVar.name := by
  rw [var?, Option.isNone_iff_eq_none, List.find?_eq_none, List.mem_map]
  simp only [decide_eq_true_eq, not_exists, not_and]

theorem undeclared?_eq_none_iff : manifest.undeclared? env = none
    ↔ ∀ name ∈ env.keys, name ∈ manifest.vars.map EnvVar.name := by
  rw [undeclared?, List.find?_eq_none]
  simp only [var?_isNone_iff, not_not]

theorem missing_eq_nil_iff : manifest.missing env = []
    ↔ ∀ name ∈ manifest.requiredNames, name ∈ env.keys := by
  rw [missing, List.filter_eq_nil_iff]
  simp only [Bool.not_eq_true', Bool.not_eq_false, Table.contains_iff]

/-- An environment fits when all its variables are listed and it has all that are required. -/
theorem check_eq_ok_iff : manifest.check env = .ok ()
    ↔ (∀ name ∈ env.keys, name ∈ manifest.vars.map EnvVar.name)
      ∧ ∀ name ∈ manifest.requiredNames, name ∈ env.keys := by
  rw [← undeclared?_eq_none_iff, ← missing_eq_nil_iff, check]
  cases hundeclared : manifest.undeclared? env with
  | some name => simp
  | none => cases hmissing : manifest.missing env <;> simp

end EnvManifest

namespace HandlerStep

variable {type : OutputType} {settings : OutputSettings} {w : Workflow} {ctx : HandlerContext}
  {key : String}

/-- The environment has the variables with a value, and those in which outputs are read. -/
theorem mem_keys_envOf : key ∈ (envOf type settings w ctx).keys
    ↔ (∃ value, (key, some value) ∈ commonEnv settings w ctx ++ ownEnv type settings w ctx)
      ∨ key ∈ (reads type w ctx).map Prod.fst := by
  rw [envOf, Table.mem_keys_ofList]
  simp only [List.filterMap_append, List.map_append, List.mem_append, List.mem_map,
    List.mem_filterMap, Option.map_eq_some_iff]
  constructor
  · rintro ((⟨_, ⟨⟨_, _⟩, hmem, value, rfl, rfl⟩, rfl⟩ | ⟨_, ⟨⟨_, _⟩, hmem, value, rfl, rfl⟩, rfl⟩)
      | ⟨_, ⟨_, ⟨entry, hmem, rfl⟩, value, _, rfl⟩, rfl⟩)
    · exact .inl ⟨value, .inl hmem⟩
    · exact .inl ⟨value, .inr hmem⟩
    · exact .inr ⟨entry, hmem, rfl⟩
  · rintro (⟨value, hmem | hmem⟩ | ⟨entry, hmem, rfl⟩)
    · exact .inl (.inl ⟨_, ⟨_, hmem, value, rfl, rfl⟩, rfl⟩)
    · exact .inl (.inr ⟨_, ⟨_, hmem, value, rfl, rfl⟩, rfl⟩)
    · exact .inr ⟨_, ⟨_, ⟨entry, hmem, rfl⟩, _, rfl, rfl⟩, rfl⟩

/-- The variables that every type may have are common to all manifests. -/
theorem fst_mem_of_commonEnv {entry : String × Option String}
    (h : entry ∈ commonEnv settings w ctx) : entry.1 ∈ EnvManifest.common.map EnvVar.name := by
  have hkeys : (commonEnv settings w ctx).map Prod.fst ⊆ EnvManifest.common.map EnvVar.name := by
    show ["GH_AW_WORKFLOW_NAME", "GITHUB_TOKEN", "GH_AW_WORKFLOW_SOURCE", "GH_AW_TRACKER_ID",
      "GH_AW_ENGINE_ID", "GH_AW_SAFE_OUTPUTS_STAGED", "GH_AW_TARGET_REPO_SLUG",
      "GH_AW_SAFE_OUTPUT_MAX", "GH_AW_SAFE_OUTPUT_MIN"] ⊆ _
    decide
  exact hkeys (List.mem_map_of_mem h)

/-- The variables of a type's own are listed for it. -/
theorem fst_mem_of_ownEnv {entry : String × Option String}
    (h : entry ∈ ownEnv type settings w ctx) :
    entry.1 ∈ (EnvManifest.own type).map EnvVar.name := by
  revert entry
  cases type <;>
    simp [ownEnv, EnvManifest.own, EnvVar.required, EnvVar.optional, EnvVar.defaulting]

/-- The variables in which a type reads outputs are listed for it. -/
theorem fst_mem_of_reads {entry : String × OutputRef} (h : entry ∈ reads type w ctx) :
    entry.1 ∈ (EnvManifest.own type).map EnvVar.name := by
  rw [reads, itemReads, List.mem_append, List.mem_append] at h
  rcases h with (hcreated | hidentifiers) | hcomment
  · -- Only comments read the items that other jobs create.
    split at hcreated
    case isTrue htype =>
      subst htype
      obtain ⟨item, hitem, rfl⟩ := List.mem_map.mp hcreated
      revert item
      simp [createdItems, EnvManifest.own, EnvVar.optional]
    case isFalse => cases hcreated
  · split at hidentifiers
    case isTrue htype =>
      obtain ⟨ref, -, rfl⟩ := List.mem_map.mp hidentifiers
      rw [OutputType.requiresTemporaryIds, Bool.or_eq_true, decide_eq_true_eq, decide_eq_true_eq]
        at htype
      rcases htype with rfl | rfl <;> simp [EnvManifest.own, EnvVar.optional]
    case isFalse => cases hidentifiers
  · rw [commentReads] at hcomment
    split at hcomment
    case isTrue htype =>
      obtain ⟨rfl, -⟩ := htype
      revert entry
      simp [EnvManifest.own, EnvVar.optional, EnvVar.required, EnvVar.defaulting]
    case isFalse => cases hcomment

/-- What a manifest requires always has a value. -/
theorem exists_value_of_required (h : key ∈ (EnvManifest.ofType type).requiredNames) :
    ∃ value, (key, some value) ∈ commonEnv settings w ctx ++ ownEnv type settings w ctx := by
  rw [EnvManifest.requiredNames, EnvManifest.ofType, List.filter_append, List.map_append,
    List.mem_append] at h
  simp only [List.mem_append]
  rcases h with hcommon | hown
  · have hkey : key ∈ ["GH_AW_WORKFLOW_NAME", "GITHUB_TOKEN"] := hcommon
    rcases List.mem_pair.mp hkey with rfl | rfl
    · exact ⟨w.name, .inl (by simp [commonEnv])⟩
    · exact ⟨Token.ofSettings settings w ctx.outputs, .inl (by simp [commonEnv])⟩
  · have hvalue : ∃ value, (key, some value) ∈ ownEnv type settings w ctx := by
      revert key
      cases type <;>
        simp [ownEnv, EnvManifest.own, EnvVar.required, EnvVar.optional, EnvVar.defaulting]
    obtain ⟨value, hmem⟩ := hvalue
    exact ⟨value, .inr hmem⟩

/-- **The environment of every handler fits its manifest**, whatever its settings are, whatever the
workflow is and whatever the other jobs are. -/
theorem check_envOf (type : OutputType) (settings : OutputSettings) (w : Workflow)
    (ctx : HandlerContext) :
    (EnvManifest.ofType type).check (envOf type settings w ctx) = .ok () := by
  refine EnvManifest.check_eq_ok_iff.mpr ⟨fun name hname => ?_, fun name hname => ?_⟩
  · rw [EnvManifest.ofType, List.map_append, List.mem_append]
    rcases mem_keys_envOf.mp hname with ⟨value, hmem⟩ | hread
    · rcases List.mem_append.mp hmem with hmem | hmem
      · exact .inl (fst_mem_of_commonEnv hmem)
      · exact .inr (fst_mem_of_ownEnv hmem)
    · obtain ⟨entry, hmem, rfl⟩ := List.mem_map.mp hread
      exact .inr (fst_mem_of_reads hmem)
  · exact mem_keys_envOf.mpr (.inl (exists_value_of_required hname))

end HandlerStep

end AgentGate
