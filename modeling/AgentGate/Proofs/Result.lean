import Mathlib.Logic.Basic

/-!
# Results of functions that may fail

When a composed function succeeds, and when it fails, in terms of its parts.

- `bind_eq_ok_iff`, `bind_eq_error_iff`: one function after the other.
- `mapError_eq_ok_iff`, `mapError_eq_error_iff`: a fault that is reported as another.
- `map_eq_ok_iff`, `exists_map_eq_ok_iff`, `exists_mapM_eq_ok_iff`: what is done with a result, and
  whether there is one at all.
- `mapM_map_eq_ok`: items that are read from what is written of them.
-/

namespace AgentGate

variable {ε ε' α β γ : Type}

theorem eq_ok_of_isOk {result : Except ε α} (h : result.isOk = true) :
    ∃ value, result = .ok value := by
  cases result with
  | error => cases h
  | ok value => exact ⟨value, rfl⟩

theorem bind_eq_ok_iff {first : Except ε α} {next : α → Except ε β} {result : β} :
    (first >>= next) = .ok result ↔ ∃ value, first = .ok value ∧ next value = .ok result := by
  cases first with
  | error error => exact ⟨fun h => (nomatch h), fun ⟨_, h, _⟩ => (nomatch h)⟩
  | ok value =>
    refine ⟨fun h => ⟨value, rfl, h⟩, ?_⟩
    rintro ⟨_, heq, h⟩
    cases heq
    exact h

theorem mapError_eq_ok_iff {first : Except ε α} {f : ε → ε'} {result : α} :
    first.mapError f = .ok result ↔ first = .ok result := by
  cases first with
  | error error => exact ⟨fun h => (nomatch h), fun h => (nomatch h)⟩
  | ok value => exact ⟨fun h => congrArg _ (Except.ok.inj h), fun h => congrArg _ (Except.ok.inj h)⟩

theorem mapError_eq_error_iff {first : Except ε α} {f : ε → ε'} {error : ε'} :
    first.mapError f = .error error ↔ ∃ cause, first = .error cause ∧ f cause = error := by
  cases first with
  | error cause =>
    constructor
    · exact fun h => ⟨cause, rfl, Except.error.inj h⟩
    · rintro ⟨_, heq, rfl⟩
      cases heq
      rfl
  | ok value => exact ⟨fun h => (nomatch h), fun ⟨_, h, _⟩ => (nomatch h)⟩

theorem bind_eq_error_iff {first : Except ε α} {next : α → Except ε β} {error : ε} :
    (first >>= next) = .error error
      ↔ first = .error error ∨ ∃ value, first = .ok value ∧ next value = .error error := by
  cases first with
  | error other =>
    constructor
    · exact fun h => .inl (congrArg _ (Except.error.inj h))
    · rintro (h | ⟨_, h, _⟩)
      · exact congrArg _ (Except.error.inj h)
      · cases h
  | ok value =>
    constructor
    · exact fun h => .inr ⟨value, rfl, h⟩
    · rintro (h | ⟨_, heq, h⟩)
      · cases h
      · cases heq
        exact h

theorem map_eq_ok_iff {first : Except ε α} {f : α → β} {result : β} :
    first.map f = .ok result ↔ ∃ value, first = .ok value ∧ f value = result := by
  cases first with
  | error => exact ⟨fun h => (nomatch h), fun ⟨_, h, _⟩ => (nomatch h)⟩
  | ok value =>
    constructor
    · exact fun h => ⟨value, rfl, Except.ok.inj h⟩
    · rintro ⟨_, heq, rfl⟩
      cases heq
      rfl

/-- What is done with a result makes no difference to whether there is one. -/
theorem exists_map_eq_ok_iff {first : Except ε α} {f : α → β} :
    (∃ result, first.map f = .ok result) ↔ ∃ result, first = .ok result := by
  simp only [map_eq_ok_iff]
  exact ⟨fun ⟨_, value, h, _⟩ => ⟨value, h⟩, fun ⟨value, h⟩ => ⟨f value, value, h, rfl⟩⟩

/-! ## Lists -/

theorem exists_mapM_eq_ok_iff {read : α → Except ε β} {items : List α} :
    (∃ results, items.mapM read = .ok results)
      ↔ ∀ item ∈ items, ∃ result, read item = .ok result := by
  induction items with
  | nil => exact iff_of_true ⟨[], rfl⟩ nofun
  | cons item rest ih =>
    rw [List.forall_mem_cons, ← ih, List.mapM_cons]
    simp only [bind_eq_ok_iff]
    constructor
    · rintro ⟨_, result, hresult, results, hresults, -⟩
      exact ⟨⟨result, hresult⟩, results, hresults⟩
    · rintro ⟨⟨result, hresult⟩, results, hresults⟩
      exact ⟨_, result, hresult, results, hresults, rfl⟩

theorem mapM_map_eq_ok {write : α → γ} {read : γ → Except ε α} {items : List α}
    (h : ∀ item ∈ items, read (write item) = .ok item) :
    (items.map write).mapM read = .ok items := by
  induction items with
  | nil => rfl
  | cons item rest ih =>
    obtain ⟨hitem, hrest⟩ := List.forall_mem_cons.mp h
    rw [List.map_cons, List.mapM_cons, hitem, ih hrest]
    rfl

end AgentGate
