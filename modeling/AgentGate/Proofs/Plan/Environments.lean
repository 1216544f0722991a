import AgentGate.Proofs.Plan.Accepted

/-!
# The environments of handler steps

The manifest of a type and the handler that fills its environment are written apart. Whatever the
settings of the type are, and whatever a handler is told about the other types, the two agree; so
the check of an environment rejects no workflow.

- `HandlerStep.exists_build_iff`: which settings give a step.
- `Workflow.kind_of_compile_eq_error`: the errors that a compilation ends with.
- `HandlerStep.build_fits_manifest`: every step fits its manifest, and no compilation fails for it.
-/

namespace AgentGate

namespace HandlerStep

variable {type : OutputType} {w : Workflow} {ctx : HandlerContext} {step : HandlerStep}

/-- A step is made from settings without a fault, and from nothing else. -/
theorem build_eq_some_iff : build type w ctx = .ok (some step)
    ↔ ∃ settings, ctx.outputs.settings? type = some settings ∧ settings.InOrder type
      ∧ ofSettings type settings w ctx = step := by
  rw [build]
  cases hset : ctx.outputs.settings? type with
  | none =>
    constructor
    · intro h
      cases h
    · rintro ⟨_, hnone, -⟩
      cases hnone
  | some settings =>
    simp only [Option.some.injEq, exists_eq_left', ← OutputSettings.fault?_eq_none_iff]
    cases hfault : settings.fault? type with
    | some fault =>
      constructor
      · intro h
        cases h
      · rintro ⟨hnone, -⟩
        cases hnone
    | none =>
      rw [and_iff_right rfl]
      constructor
      · intro h
        exact Option.some.inj (Except.ok.inj h)
      · rintro rfl
        rfl

/-- A type has a step when it is turned on with settings that are in order. -/
theorem exists_build_iff : (∃ step, build type w ctx = .ok (some step))
    ↔ ∃ settings, ctx.outputs.settings? type = some settings ∧ settings.InOrder type := by
  simp only [build_eq_some_iff]
  constructor
  · rintro ⟨step, settings, hset, hinOrder, -⟩
    exact ⟨settings, hset, hinOrder⟩
  · rintro ⟨settings, hset, hinOrder⟩
    exact ⟨_, settings, hset, hinOrder, rfl⟩

end HandlerStep

namespace Workflow

variable {w : Workflow} {registry : Registry} {engine : Engine} {options : CompileOptions}
  {error : CompileError}

theorem configuration_of_checkDeclared (h : w.checkDeclared = .error error) :
    error.kind = .configuration := by
  rw [checkDeclared] at h
  split at h
  · cases h
    rfl
  · cases h

/-- A workflow is rejected for its configuration, for the permissions of its agent, or since its
jobs do not form a valid graph. -/
theorem kind_of_compile_eq_error (h : w.compile registry engine options = .error error) :
    error.kind = .configuration ∨ error.kind = .permission ∨ error.kind = .graph := by
  -- The checks come one after the other, and the first error is that of the compilation.
  rw [compile] at h
  rcases bind_eq_error_iff.mp h with hname | ⟨-, -, h⟩
  · exact .inl (configuration_of_checkName hname)
  rcases bind_eq_error_iff.mp h with hpermissions | ⟨warnings, -, h⟩
  · exact .inr (.inl (permission_of_checkPermissions hpermissions))
  rcases bind_eq_error_iff.mp h with hdeclared | ⟨-, -, h⟩
  · exact .inl (configuration_of_checkDeclared hdeclared)
  rcases bind_eq_error_iff.mp h with hassemble | ⟨jobs, -, h⟩
  · rcases JobGraph.mem_or_fault_of_assemble_eq_error hassemble with hcandidate | ⟨fault, -, rfl⟩
    · exact .inl (configuration_of_candidate hcandidate)
    · exact .inr (.inr rfl)
  rcases bind_eq_error_iff.mp h with hvalid | ⟨-, -, h⟩
  · obtain ⟨fault, -, rfl⟩ := mapError_eq_error_iff.mp hvalid
    exact .inr (.inr rfl)
  · cases h

end Workflow

namespace HandlerStep

/-- **Every step fits the manifest of its type.** A type has a step when it is turned on with
settings that are in order. Whatever the workflow, the settings of the other types and the context
are, the check accepts the environment of the step: every variable is listed, and every required one
is there. So whatever the registry, a workflow is never rejected for an environment. -/
theorem build_fits_manifest (type : OutputType) (w : Workflow) (ctx : HandlerContext) :
    ((∃ step, build type w ctx = .ok (some step))
      ↔ ∃ settings, ctx.outputs.settings? type = some settings ∧ settings.InOrder type)
    ∧ (∀ step, build type w ctx = .ok (some step) →
      (EnvManifest.ofType type).check step.env = .ok ()
      ∧ (∀ name ∈ step.env.keys, name ∈ (EnvManifest.ofType type).vars.map EnvVar.name)
      ∧ ∀ name ∈ (EnvManifest.ofType type).requiredNames, name ∈ step.env.keys)
    ∧ ∀ registry engine options error, w.compile registry engine options = .error error →
      error.kind ≠ .manifest := by
  refine ⟨exists_build_iff, ?_, ?_⟩
  · intro step hstep
    obtain ⟨settings, -, -, rfl⟩ := build_eq_some_iff.mp hstep
    have hcheck : (EnvManifest.ofType type).check (ofSettings type settings w ctx).env = .ok () :=
      check_envOf type settings w ctx
    exact ⟨hcheck, EnvManifest.check_eq_ok_iff.mp hcheck⟩
  · intro registry engine options error herror hkind
    rcases Workflow.kind_of_compile_eq_error herror with h | h | h
    all_goals
      rw [hkind] at h
      cases h

end HandlerStep

namespace Workflow

/-- Comments in another repository, and discussions of which at least three are asked for where at
most two may be. -/
def digestOutputs : SafeOutputs where
  types type :=
    match type with
    | .addComment => .enabled { targetRepo := some "octo/digest", hideOlderComments := some true }
    | .createDiscussion => .enabled { min := some 3, max := some 2 }
    | _ => .absent
  staged := true

/-- A workflow with these outputs. -/
def digest : Workflow :=
  { name := "Digest", trackerId := some "digest-7", safeOutputs := some digestOutputs }

/-- A context in which issues are created and their temporary identifiers resolved elsewhere. -/
def digestContext : HandlerContext where
  outputs := digestOutputs
  detectionActive := false
  temporaryIds := some ⟨"ids", "map"⟩
  enabled := [.createIssue, .createDiscussion]

theorem digest_fits_manifest :
    (∃ step, HandlerStep.build .addComment digest digestContext = .ok (some step)
      ∧ "GH_AW_TEMPORARY_ID_MAP" ∈ step.env.keys
      ∧ (EnvManifest.ofType .addComment).check step.env = .ok ())
    ∧ ∃ error, digest.compile .default ⟨Engine.defaultCommand⟩ {} = .error error
      ∧ error.kind ≠ .manifest := by
  obtain ⟨-, hfits, hnever⟩ := HandlerStep.build_fits_manifest .addComment digest digestContext
  constructor
  · refine ⟨_, rfl, by decide +kernel, (hfits _ rfl).1⟩
  · have hrejected : (digest.compile .default ⟨Engine.defaultCommand⟩ {}).isOk = false := by
      decide +kernel
    cases hcompile : digest.compile .default ⟨Engine.defaultCommand⟩ {} with
    | ok compiled =>
      rw [hcompile] at hrejected
      cases hrejected
    | error error => exact ⟨error, rfl, hnever _ _ _ error hcompile⟩

end Workflow

end AgentGate
