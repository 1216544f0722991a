import AgentGate.Proofs.Handler.Variables
import AgentGate.Proofs.Plan.Environments
import AgentGate.Proofs.Text.Pieces

/-!
# Lists in the environment

A script is given the labels of its type, and those that it may use, as one text: the entries of
the list, joined by commas. Nothing in an entry is escaped, so a script that cuts the text at commas
finds the list again where no entry has a comma in it, and takes other entries from it where one
does.

- `OutputSettings.lists`: the lists that a type passes on, by variable.
- `HandlerStep.Passes`: a step is given a list under a variable.
- `EnvEntries.listed_eq_iff`: which lists have the same text.
- `HandlerStep.passes_exact`: what a script finds of the list that it is given.
-/

namespace AgentGate

/-- The lists that a type passes to its script, by variable. -/
def OutputSettings.lists (settings : OutputSettings) : OutputType → List (String × List String)
  | .createIssue =>
    [("GH_AW_ISSUE_LABELS", settings.labels), ("GH_AW_ISSUE_ALLOWED_LABELS", settings.allowed)]
  | .createDiscussion => [("GH_AW_DISCUSSION_LABELS", settings.labels)]
  | .addLabels => [("GH_AW_LABELS_ALLOWED", settings.allowed)]
  | .createPullRequest =>
    [("GH_AW_PR_LABELS", settings.labels), ("GH_AW_PR_ALLOWED_LABELS", settings.allowed)]
  | .pushToPullRequestBranch => [("GH_AW_PR_LABELS", settings.labels)]
  | _ => []

/-! ## The text of a list -/

namespace EnvEntries

variable {items others : List String}

theorem listed_eq_none_iff : listed items = none ↔ items = [] := by
  cases items <;> simp [listed]

theorem listed_eq_some_iff {value : String} :
    listed items = some value ↔ items ≠ [] ∧ ",".intercalate items = value := by
  cases items <;> simp [listed]

/-- Two lists have the same text exactly where the same pieces stand between their commas. -/
theorem listed_eq_iff : listed items = listed others
    ↔ items.flatMap (Text.pieces ',') = others.flatMap (Text.pieces ',') := by
  have hempty : ∀ items : List String, items.flatMap (Text.pieces ',') = [] ↔ items = [] := by
    intro items
    cases items with
    | nil => exact iff_of_true rfl rfl
    | cons item rest => simp [Text.pieces_ne_nil]
  by_cases hitems : items = []
  · rw [hitems]
    exact (eq_comm.trans listed_eq_none_iff).trans ((hempty others).symm.trans eq_comm)
  by_cases hothers : others = []
  · rw [hothers]
    exact listed_eq_none_iff.trans (hempty items).symm
  -- Neither is empty, so that both have a text.
  rw [listed_eq_some_iff.mpr ⟨hitems, rfl⟩, listed_eq_some_iff.mpr ⟨hothers, rfl⟩,
    Option.some.injEq]
  exact Text.intercalate_eq_iff String.toList_ofList hitems hothers

end EnvEntries

/-! ## What a script finds -/

namespace HandlerStep

open EnvEntries

variable {type : OutputType} {settings : OutputSettings} {w : Workflow} {ctx : HandlerContext}
  {key : String} {items : List String} {step : HandlerStep}

/-- The step of a type, in whatever workflow, is given the list under the variable. -/
def Passes (type : OutputType) (key : String) (items : List String) (step : HandlerStep) : Prop :=
  ∃ (w : Workflow) (ctx : HandlerContext) (settings : OutputSettings),
    ctx.outputs.settings? type = some settings ∧ (key, items) ∈ settings.lists type
      ∧ build type w ctx = .ok (some step)

theorem mem_ownEnv_of_lists (h : (key, items) ∈ settings.lists type) :
    (key, listed items) ∈ ownEnv type settings w ctx := by
  cases type with
  | createIssue | createPullRequest =>
    rcases List.mem_pair.mp h with h | h
    all_goals
      obtain ⟨rfl, rfl⟩ := Prod.mk.inj h
      simp [ownEnv]
  | createDiscussion | addLabels | pushToPullRequestBranch =>
    obtain ⟨rfl, rfl⟩ := Prod.mk.inj (List.mem_singleton.mp h)
    simp [ownEnv]
  | addComment | createPrReviewComment | createCodeScanningAlert | createAgentTask | missingTool
  | noop => cases h

theorem get?_of_passes (h : Passes type key items step) : step.env.get? key = listed items := by
  obtain ⟨w, ctx, settings, hset, hlist, hbuild⟩ := h
  obtain ⟨found, hfound, -, rfl⟩ := build_eq_some_iff.mp hbuild
  rw [hset] at hfound
  obtain rfl := Option.some.inj hfound
  exact get?_envOf (List.mem_append_right _ (mem_ownEnv_of_lists hlist))

/-- **What a script finds of a list.** The variable is missing exactly where the list is empty.
Otherwise the text, cut at commas, is the list exactly where no entry has a comma in it. Two lists
are given to the script as one and the same text exactly where the same pieces stand between their
commas; so lists without commas in their entries are never confused. -/
theorem passes_exact (h : Passes type key items step) :
    (step.env.get? key = none ↔ items = [])
    ∧ (∀ value, step.env.get? key = some value →
      (Text.pieces ',' value = items ↔ ∀ item ∈ items, ',' ∉ item.toList))
    ∧ ∀ others other, Passes type key others other →
      (step.env.get? key = other.env.get? key
        ↔ items.flatMap (Text.pieces ',') = others.flatMap (Text.pieces ','))
      ∧ ((∀ item ∈ items ++ others, ',' ∉ item.toList) →
        step.env.get? key = other.env.get? key → items = others) := by
  rw [get?_of_passes h]
  refine ⟨listed_eq_none_iff, ?_, ?_⟩
  · intro value hvalue
    obtain ⟨hitems, rfl⟩ := listed_eq_some_iff.mp hvalue
    exact Text.pieces_intercalate_eq_iff String.toList_ofList hitems
  · intro others other hother
    rw [get?_of_passes hother, listed_eq_iff]
    refine ⟨Iff.rfl, fun hcomma heq => ?_⟩
    obtain ⟨hitems, hothers⟩ := List.forall_mem_append.mp hcomma
    rwa [Text.flatMap_pieces_eq_self_iff.mpr hitems, Text.flatMap_pieces_eq_self_iff.mpr hothers]
      at heq

end HandlerStep

namespace Workflow

/-- Labels of which only some are allowed. -/
def labelling (allowed : List String) : SafeOutputs where
  types type :=
    match type with
    | .addLabels => .enabled { allowed }
    | _ => .absent

/-- The step for labels of a workflow that allows only some. -/
def labellingStep (allowed : List String) : HandlerStep :=
  HandlerStep.ofSettings .addLabels { allowed } { safeOutputs := some (labelling allowed) }
    (context .default (labelling allowed))

theorem passes_labellingStep (allowed : List String) :
    HandlerStep.Passes .addLabels "GH_AW_LABELS_ALLOWED" allowed (labellingStep allowed) :=
  ⟨{ safeOutputs := some (labelling allowed) }, context .default (labelling allowed), { allowed },
    rfl, List.mem_singleton_self _, rfl⟩

theorem labelling_found :
    (labellingStep ["bug", "wontfix"]).env.get? "GH_AW_LABELS_ALLOWED" = some "bug,wontfix"
    ∧ Text.pieces ',' "bug,wontfix" = ["bug", "wontfix"]
    ∧ (labellingStep ["bug", "wontfix"]).env.get? "GH_AW_LABELS_ALLOWED"
      ≠ (labellingStep ["wontfix", "bug"]).env.get? "GH_AW_LABELS_ALLOWED" := by
  have hpasses := passes_labellingStep ["bug", "wontfix"]
  obtain ⟨-, hfound, hconfused⟩ := HandlerStep.passes_exact hpasses
  have hvalue : (labellingStep ["bug", "wontfix"]).env.get? "GH_AW_LABELS_ALLOWED"
      = some "bug,wontfix" := HandlerStep.get?_of_passes hpasses
  refine ⟨hvalue, (hfound _ hvalue).mpr (by decide), fun heq => ?_⟩
  have hsame := (hconfused _ _ (passes_labellingStep ["wontfix", "bug"])).2 (by decide) heq
  exact absurd hsame (by decide)

/-- A label with a comma in it reaches the script as two labels, just as a list of the two does. -/
theorem labelling_confused :
    HandlerStep.Passes .addLabels "GH_AW_LABELS_ALLOWED" ["bug,wontfix"]
      (labellingStep ["bug,wontfix"])
    ∧ HandlerStep.Passes .addLabels "GH_AW_LABELS_ALLOWED" ["bug", "wontfix"]
      (labellingStep ["bug", "wontfix"])
    ∧ (labellingStep ["bug,wontfix"]).env.get? "GH_AW_LABELS_ALLOWED" = some "bug,wontfix"
    ∧ (labellingStep ["bug", "wontfix"]).env.get? "GH_AW_LABELS_ALLOWED" = some "bug,wontfix"
    ∧ Text.pieces ',' "bug,wontfix" ≠ ["bug,wontfix"] := by
  have hone := passes_labellingStep ["bug,wontfix"]
  have htwo := passes_labellingStep ["bug", "wontfix"]
  exact ⟨hone, htwo, HandlerStep.get?_of_passes hone, HandlerStep.get?_of_passes htwo,
    by decide⟩

end Workflow

end AgentGate
