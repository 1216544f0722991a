import AgentGate.Handler.Step

/-!
# Settings that are in order

- `OutputSettings.InOrder`: what the settings of a type have to satisfy, in plain words.
- `OutputSettings.fault?_eq_none_iff`: no fault is found exactly in these.
-/

namespace AgentGate.OutputSettings

/-- Settings that a type accepts. -/
structure InOrder (settings : OutputSettings) (type : OutputType) : Prop where
  /-- A target repository is one repository, and not that of the triggering item. -/
  repo : ∀ repo, settings.targetRepo = some repo →
    Text.trim repo ≠ "*" ∧ settings.target ≠ some .triggering
  max : settings.max ≠ some 0
  limits : ∀ min max, settings.min = some min → settings.max = some max → min ≤ max
  mode : type = .createPullRequest → ∀ mode, settings.ifNoChanges = some mode →
    mode = "warn" ∨ mode = "error" ∨ mode = "ignore"
  side : type = .createPrReviewComment → ∀ side, settings.side = some side →
    side = "LEFT" ∨ side = "RIGHT"

variable {settings : OutputSettings} {type : OutputType}

theorem targetFault?_eq_none_iff : settings.targetFault? type = none
    ↔ ∀ repo, settings.targetRepo = some repo →
      Text.trim repo ≠ "*" ∧ settings.target ≠ some .triggering := by
  rw [targetFault?]
  cases settings.targetRepo with
  | none => simp
  | some repo =>
    by_cases hany : Text.trim repo = "*" <;>
      by_cases htarget : settings.target = some .triggering <;>
      simp [hany, htarget]

theorem limitFault?_eq_none_iff : settings.limitFault? type = none
    ↔ settings.max ≠ some 0
      ∧ ∀ min max, settings.min = some min → settings.max = some max → min ≤ max := by
  rw [limitFault?]
  rcases settings.max with - | - | max
  · simp
  · simp
  · cases settings.min with
    | none => simp
    | some min => simp

theorem modeFault?_eq_none_iff : settings.modeFault? type = none
    ↔ (type = .createPullRequest → ∀ mode, settings.ifNoChanges = some mode →
      mode = "warn" ∨ mode = "error" ∨ mode = "ignore") := by
  rw [modeFault?.eq_def]
  cases type <;> cases settings.ifNoChanges <;> simp [Decidable.or_iff_not_imp_left]

theorem sideFault?_eq_none_iff : settings.sideFault? type = none
    ↔ (type = .createPrReviewComment → ∀ side, settings.side = some side →
      side = "LEFT" ∨ side = "RIGHT") := by
  rw [sideFault?.eq_def]
  cases type <;> cases settings.side <;> simp [Decidable.or_iff_not_imp_left]

/-- No fault is found exactly in settings that are in order. -/
theorem fault?_eq_none_iff : settings.fault? type = none ↔ settings.InOrder type := by
  have hfirst : ∀ first second : Option SettingFault,
      (first <|> second) = none ↔ first = none ∧ second = none := by
    intro first second
    cases first <;> simp
  rw [fault?, hfirst, hfirst, hfirst, modeFault?_eq_none_iff, sideFault?_eq_none_iff,
    targetFault?_eq_none_iff, limitFault?_eq_none_iff]
  exact ⟨fun ⟨mode, side, repo, max, limits⟩ => ⟨repo, max, limits, mode, side⟩,
    fun h => ⟨h.mode, h.side, h.repo, h.max, h.limits⟩⟩

end AgentGate.OutputSettings
