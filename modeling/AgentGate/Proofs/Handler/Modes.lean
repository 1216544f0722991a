import AgentGate.Proofs.Handler.Variables
import AgentGate.Proofs.Plan.Environments

/-!
# What to do without changes

Two types change the code of a repository, and both are told what to do where there is nothing to
change. A pull request is made only with a mode that its script knows; the mode is looked at before
anything else. A push to the branch of a pull request hands on whatever text it is given.

- `OutputSettings.noChangesModes`, `OutputSettings.noChanges`: the modes, and the one asked for.
- `OutputSettings.fault?_eq_unknownMode_iff`: when a mode is rejected.
- `OutputSettings.inOrder_createPullRequest_iff`: what pull requests check and pushes do not.
- `HandlerStep.build_noChanges`: the two types next to each other.
-/

namespace AgentGate

namespace OutputSettings

/-- The modes that the scripts know. -/
def noChangesModes : List String := ["warn", "error", "ignore"]

/-- The mode that the settings ask for. -/
def noChanges (settings : OutputSettings) : String :=
  settings.ifNoChanges.getD "warn"

variable {settings : OutputSettings} {type : OutputType} {mode : String}

theorem mem_noChangesModes_iff :
    mode ∈ noChangesModes ↔ mode = "warn" ∨ mode = "error" ∨ mode = "ignore" := by
  simp [noChangesModes]

/-- Settings without a mode ask for one that is known. -/
theorem noChanges_mem_iff : settings.noChanges ∈ noChangesModes
    ↔ ∀ mode, settings.ifNoChanges = some mode → mode ∈ noChangesModes := by
  rw [noChanges]
  cases settings.ifNoChanges with
  | none => exact iff_of_true (by decide) nofun
  | some given => simp

theorem modeFault?_eq_some_iff {fault : SettingFault} : settings.modeFault? type = some fault
    ↔ type = .createPullRequest ∧ ∃ mode, settings.ifNoChanges = some mode
      ∧ mode ∉ noChangesModes ∧ fault = .unknownNoChangesMode mode := by
  rw [modeFault?.eq_def]
  split
  case h_1 mode hgiven =>
    rw [hgiven, and_iff_right rfl]
    split
    case isTrue hknown =>
      constructor
      · intro h
        cases h
      · rintro ⟨_, hsame, hunknown, -⟩
        obtain rfl := Option.some.inj hsame
        exact absurd (mem_noChangesModes_iff.mpr hknown) hunknown
    case isFalse hunknown =>
      rw [← mem_noChangesModes_iff] at hunknown
      constructor
      · intro h
        exact ⟨mode, rfl, hunknown, (Option.some.inj h).symm⟩
      · rintro ⟨_, hsame, -, rfl⟩
        rw [Option.some.inj hsame]
  case h_2 hother =>
    constructor
    · intro h
      cases h
    · rintro ⟨htype, mode, hgiven, -⟩
      exact absurd hgiven (hother mode htype)

/-- A mode is rejected by one type, whatever else is wrong with the settings. -/
theorem fault?_eq_unknownMode_iff :
    settings.fault? type = some (.unknownNoChangesMode mode)
      ↔ type = .createPullRequest ∧ settings.ifNoChanges = some mode ∧ mode ∉ noChangesModes := by
  have hmode : settings.modeFault? type = some (.unknownNoChangesMode mode)
      ↔ type = .createPullRequest ∧ settings.ifNoChanges = some mode
        ∧ mode ∉ noChangesModes := by
    rw [modeFault?_eq_some_iff]
    refine and_congr_right' ?_
    constructor
    · rintro ⟨_, hgiven, hunknown, heq⟩
      obtain rfl := SettingFault.unknownNoChangesMode.inj heq
      exact ⟨hgiven, hunknown⟩
    · rintro ⟨hgiven, hunknown⟩
      exact ⟨mode, hgiven, hunknown, rfl⟩
  rw [← hmode, fault?]
  cases hfault : settings.modeFault? type with
  | some fault => exact Iff.rfl
  | none =>
    -- The other checks find faults of other kinds.
    rw [sideFault?.eq_def, targetFault?, limitFault?.eq_def]
    grind

/-- Pull requests are made from settings that do for a push, if their mode is known. -/
theorem inOrder_createPullRequest_iff : settings.InOrder .createPullRequest
    ↔ settings.InOrder .pushToPullRequestBranch ∧ settings.noChanges ∈ noChangesModes := by
  rw [noChanges_mem_iff]
  simp only [mem_noChangesModes_iff]
  constructor
  · intro h
    exact ⟨⟨h.repo, h.max, h.limits, nofun, nofun⟩, h.mode rfl⟩
  · rintro ⟨h, hmode⟩
    exact ⟨h.repo, h.max, h.limits, fun _ => hmode, nofun⟩

end OutputSettings

namespace HandlerStep

open OutputSettings

variable {type : OutputType} {w : Workflow} {ctx : HandlerContext}
  {settings creating pushing : OutputSettings}

/-- A step is refused for the first fault of its settings. -/
theorem build_eq_error_iff {fault : SettingFault} : build type w ctx = .error fault
    ↔ ∃ settings, ctx.outputs.settings? type = some settings
      ∧ settings.fault? type = some fault := by
  rw [build]
  cases ctx.outputs.settings? type with
  | none => simp
  | some settings =>
    simp only [Option.some.injEq, exists_eq_left']
    cases settings.fault? type <;> simp

theorem build_eq_unknownMode_iff {mode : String}
    (hset : ctx.outputs.settings? type = some settings) :
    build type w ctx = .error (.unknownNoChangesMode mode)
      ↔ type = .createPullRequest ∧ settings.ifNoChanges = some mode ∧ mode ∉ noChangesModes := by
  simp only [build_eq_error_iff, hset, Option.some.injEq, exists_eq_left',
    fault?_eq_unknownMode_iff]

/-- **What to do without changes.** Let a pull request and a push be given the same mode, or none. A
pull request is refused for its mode exactly where that is unknown, whatever else its settings are;
a push never is. The variable of the one holds a known mode, that of the other whatever is given. So
the two refuse the same modes exactly where the one that they are given is known; and settings that
are the same for both make a pull request exactly where they make a push and the mode is known. -/
theorem build_noChanges (hcreating : ctx.outputs.settings? .createPullRequest = some creating)
    (hpushing : ctx.outputs.settings? .pushToPullRequestBranch = some pushing)
    (hsame : pushing.ifNoChanges = creating.ifNoChanges) :
    (∀ mode, build .createPullRequest w ctx = .error (.unknownNoChangesMode mode)
      ↔ creating.ifNoChanges = some mode ∧ mode ∉ noChangesModes)
    ∧ (∀ mode, build .pushToPullRequestBranch w ctx ≠ .error (.unknownNoChangesMode mode))
    ∧ (∀ step, build .createPullRequest w ctx = .ok (some step) →
      step.env.get? "GH_AW_PR_IF_NO_CHANGES" = some creating.noChanges
      ∧ creating.noChanges ∈ noChangesModes)
    ∧ (∀ step, build .pushToPullRequestBranch w ctx = .ok (some step) →
      step.env.get? "GH_AW_PUSH_IF_NO_CHANGES" = some creating.noChanges)
    ∧ ((∀ mode, build .createPullRequest w ctx = .error (.unknownNoChangesMode mode)
        ↔ build .pushToPullRequestBranch w ctx = .error (.unknownNoChangesMode mode))
      ↔ creating.noChanges ∈ noChangesModes)
    ∧ (pushing = creating → ((∃ step, build .createPullRequest w ctx = .ok (some step))
      ↔ (∃ step, build .pushToPullRequestBranch w ctx = .ok (some step))
        ∧ creating.noChanges ∈ noChangesModes)) := by
  have hrefused : ∀ mode, build .createPullRequest w ctx = .error (.unknownNoChangesMode mode)
      ↔ creating.ifNoChanges = some mode ∧ mode ∉ noChangesModes := by
    intro mode
    rw [build_eq_unknownMode_iff hcreating, and_iff_right rfl]
  have hnever : ∀ mode,
      build .pushToPullRequestBranch w ctx ≠ .error (.unknownNoChangesMode mode) := by
    intro mode h
    cases ((build_eq_unknownMode_iff hpushing).mp h).1
  refine ⟨hrefused, hnever, ?_, ?_, ?_, ?_⟩
  · intro step hstep
    obtain ⟨settings, hset, hinOrder, rfl⟩ := build_eq_some_iff.mp hstep
    rw [hcreating] at hset
    obtain rfl := Option.some.inj hset
    refine ⟨get?_envOf (List.mem_append_right _ ?_), (inOrder_createPullRequest_iff.mp hinOrder).2⟩
    simp [ownEnv, noChanges]
  · intro step hstep
    obtain ⟨settings, hset, -, rfl⟩ := build_eq_some_iff.mp hstep
    rw [hpushing] at hset
    obtain rfl := Option.some.inj hset
    refine get?_envOf (List.mem_append_right _ ?_)
    simp [ownEnv, noChanges, hsame]
  · simp only [hrefused, iff_false_right (hnever _), noChanges_mem_iff, not_and, not_not]
  · rintro rfl
    rw [exists_build_iff, exists_build_iff]
    simp only [hcreating, hpushing, Option.some.injEq, exists_eq_left',
      inOrder_createPullRequest_iff]

end HandlerStep

namespace Workflow

/-- A pull request and a push with a mode. -/
def fixing (mode : String) : SafeOutputs where
  types type :=
    match type with
    | .createPullRequest | .pushToPullRequestBranch => .enabled { ifNoChanges := some mode }
    | _ => .absent

/-- A workflow with these outputs. -/
def fixes (mode : String) : Workflow :=
  { name := "Fixes", safeOutputs := some (fixing mode) }

theorem fixes_ignore :
    ∃ create push, HandlerStep.build .createPullRequest (fixes "ignore")
        (context .default (fixing "ignore")) = .ok (some create)
      ∧ HandlerStep.build .pushToPullRequestBranch (fixes "ignore")
        (context .default (fixing "ignore")) = .ok (some push)
      ∧ create.env.get? "GH_AW_PR_IF_NO_CHANGES" = some "ignore"
      ∧ push.env.get? "GH_AW_PUSH_IF_NO_CHANGES" = some "ignore" := by
  obtain ⟨-, -, hcreate, hpush, -⟩ := @HandlerStep.build_noChanges (fixes "ignore")
    (context .default (fixing "ignore")) _ _ rfl rfl rfl
  exact ⟨_, _, rfl, rfl, (hcreate _ rfl).1, hpush _ rfl⟩

/-- A mode that is unknown is refused for a pull request, and handed on to the script of a push. -/
theorem fixes_fail :
    HandlerStep.build .createPullRequest (fixes "fail") (context .default (fixing "fail"))
      = .error (.unknownNoChangesMode "fail")
    ∧ ∃ push, HandlerStep.build .pushToPullRequestBranch (fixes "fail")
        (context .default (fixing "fail")) = .ok (some push)
      ∧ push.env.get? "GH_AW_PUSH_IF_NO_CHANGES" = some "fail"
      ∧ "fail" ∉ OutputSettings.noChangesModes := by
  refine ⟨rfl, _, rfl, ?_, by decide⟩
  exact HandlerStep.get?_envOf (List.mem_append_right _ (by simp [HandlerStep.ownEnv]))

end Workflow

end AgentGate
