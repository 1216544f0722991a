import AgentGate.Proofs.Plan.Accepted

/-!
# What strictness changes

A workflow, or its surroundings, may ask for strictness. It is looked at only where the permissions
of the agent are checked, and there it makes an error of what would be a warning. So a strict
compilation is one without strictness that gives no warning.

- `Workflow.checkPermissions_cases`: what the check says with and without strictness.
- `Workflow.compile_eq_ok_iff_of_strict`: when a strict compilation succeeds.
- `Workflow.compile_strict_iff`: strictness turns warnings into errors, and changes nothing else.
-/

namespace AgentGate.Workflow

variable {w : Workflow} {warnings : List String} {registry : Registry} {engine : Engine}
  {options : CompileOptions} {compiled : Compiled} {graph : JobGraph}

/-! ## The check of permissions -/

/-- With and without strictness the check either passes without a warning, or warns of an excess
that is an error when strict, or fails for what is missing. -/
theorem checkPermissions_cases (w : Workflow) :
    (w.checkPermissions true = .ok [] ∧ w.checkPermissions false = .ok [])
      ∨ ∃ audit, w.audit? = some audit ∧ w.checkPermissions true = .error (.permission audit true)
        ∧ (w.checkPermissions false = .ok [audit.message false]
          ∨ w.checkPermissions false = .error (.permission audit false)) := by
  cases haudit : w.audit? with
  | none =>
    have hpasses : ∀ strict, w.checkPermissions strict = .ok [] := fun strict => by
      rw [checkPermissions, haudit]
    exact .inl ⟨hpasses true, hpasses false⟩
  | some audit =>
    simp only [checkPermissions_of_audit haudit]
    cases hmissing : audit.missing.isEmpty with
    | false =>
      have hrejects : ∀ strict, audit.rejects strict = true := fun strict => by
        rw [Audit.rejects, hmissing]
        rfl
      simp only [hrejects]
      exact .inr ⟨audit, rfl, rfl, .inr rfl⟩
    | true =>
      have hrejects : ∀ strict, audit.rejects strict = (strict && !audit.excess.isEmpty) :=
        fun strict => by rw [Audit.rejects, hmissing]; rfl
      simp only [hrejects]
      cases audit.excess.isEmpty with
      | false => exact .inr ⟨audit, rfl, rfl, .inl rfl⟩
      | true => exact .inl ⟨rfl, rfl⟩

/-- What passes the strict check passes the other one without a warning. -/
theorem checkPermissions_true_eq_ok_iff : w.checkPermissions true = .ok warnings
    ↔ warnings = [] ∧ w.checkPermissions false = .ok [] := by
  rcases w.checkPermissions_cases with ⟨hstrict, hother⟩ | ⟨audit, -, hstrict, hother | hother⟩
  · rw [hstrict, and_iff_left hother]
    exact ⟨fun h => (Except.ok.inj h).symm, fun h => congrArg _ h.symm⟩
  · rw [hstrict, hother]
    exact ⟨fun h => (nomatch h), fun h => (nomatch Except.ok.inj h.2)⟩
  · rw [hstrict, hother]
    exact ⟨fun h => (nomatch h), fun h => (nomatch h.2)⟩

/-- A warning is the report of an audit, which is an error of the strict check. -/
theorem checkPermissions_true_of_warnings (h : w.checkPermissions false = .ok warnings)
    (hwarnings : warnings ≠ []) : ∃ audit, w.audit? = some audit
      ∧ warnings = [audit.message false]
      ∧ w.checkPermissions true = .error (.permission audit true) := by
  rcases w.checkPermissions_cases with ⟨-, hother⟩ | ⟨audit, haudit, hstrict, hother | hother⟩
  · rw [hother] at h
    exact absurd (Except.ok.inj h).symm hwarnings
  · rw [hother] at h
    exact ⟨audit, haudit, (Except.ok.inj h).symm, hstrict⟩
  · rw [hother] at h
    cases h

/-! ## Compilations -/

/-- A strict compilation succeeds just when the other one gives the same graph without warnings. -/
theorem compile_eq_ok_iff_of_strict (hstrict : (w.strict || options.strict) = true) :
    w.compile registry engine options = .ok ⟨graph, warnings⟩
      ↔ warnings = [] ∧ { w with strict := false }.compile registry engine
        { options with strict := false } = .ok ⟨graph, []⟩ := by
  rw [compile_eq_ok_iff, compile_eq_ok_iff, hstrict, checkPermissions_true_eq_ok_iff]
  constructor
  · rintro ⟨hname, ⟨hwarnings, hpermissions⟩, hdeclared, hvalid, hgraph⟩
    exact ⟨hwarnings, hname, hpermissions, hdeclared, hvalid, hgraph⟩
  · rintro ⟨hwarnings, hname, hpermissions, hdeclared, hvalid, hgraph⟩
    exact ⟨hname, ⟨hwarnings, hpermissions⟩, hdeclared, hvalid, hgraph⟩

/-- **Strictness only rejects.** Where it is asked for, by the workflow or by its surroundings, a
compilation gives a graph just when the one without strictness gives the same graph and no warning,
and it gives no warning itself. Where the one without strictness gives a warning, which reports an
audit of the agent's permissions, the strict one ends with this audit as an error. -/
theorem compile_strict_iff (registry : Registry) (engine : Engine)
    (hstrict : (w.strict || options.strict) = true) :
    (∀ graph, (∃ warnings, w.compile registry engine options = .ok ⟨graph, warnings⟩)
      ↔ { w with strict := false }.compile registry engine { options with strict := false }
        = .ok ⟨graph, []⟩)
    ∧ (∀ compiled, w.compile registry engine options = .ok compiled → compiled.warnings = [])
    ∧ ∀ compiled, { w with strict := false }.compile registry engine
        { options with strict := false } = .ok compiled → compiled.warnings ≠ [] →
      ∃ audit, w.audit? = some audit ∧ compiled.warnings = [audit.message false]
        ∧ w.compile registry engine options = .error (.permission audit true) := by
  refine ⟨fun graph => ?_, fun compiled h => ?_, fun compiled h hwarnings => ?_⟩
  · simp only [compile_eq_ok_iff_of_strict hstrict, exists_eq_left]
  · exact ((compile_eq_ok_iff_of_strict hstrict).mp h).1
  · obtain ⟨hname, hpermissions, -⟩ := compile_eq_ok_iff.mp h
    obtain ⟨audit, haudit, hreport, hrejected⟩ :=
      checkPermissions_true_of_warnings hpermissions hwarnings
    refine ⟨audit, haudit, hreport, ?_⟩
    -- The name is checked before, and passes in both.
    change w.checkName = .ok () at hname
    change w.checkPermissions true = _ at hrejected
    rw [compile, hstrict, bind_eq_error_iff]
    exact .inr ⟨(), hname, bind_eq_error_iff.mpr (.inl hrejected)⟩

/-- A report whose agent is granted more than its toolset needs. -/
def generous : Workflow :=
  { report with permissions := Permissions.empty.set .issues .write }

/-- Its jobs, each after what it may need. -/
def reportOrder : List String :=
  ["activation", "agent", "detection", "create_issue", "add_comment", "conclusion"]

theorem report_generous_strict :
    (∃ graph, report.compile .default ⟨Engine.defaultCommand⟩ { strict := true } = .ok ⟨graph, []⟩
      ∧ report.compile .default ⟨Engine.defaultCommand⟩ {} = .ok ⟨graph, []⟩)
    ∧ ∃ compiled audit, generous.compile .default ⟨Engine.defaultCommand⟩ {} = .ok compiled
      ∧ compiled.warnings = [audit.message false]
      ∧ generous.compile .default ⟨Engine.defaultCommand⟩ { strict := true }
        = .error (.permission audit true) := by
  constructor
  · have hfits : report.fitsOrder .default ⟨Engine.defaultCommand⟩ { strict := true } reportOrder
        = true := by
      decide +kernel
    obtain ⟨⟨graph, warnings⟩, hcompiled⟩ := exists_compile_of_fitsOrder hfits
    have hstrict : (report.strict || CompileOptions.strict { strict := true }) = true := rfl
    obtain ⟨hgraph, hnone, -⟩ := compile_strict_iff .default ⟨Engine.defaultCommand⟩ hstrict
    obtain rfl : warnings = [] := hnone _ hcompiled
    exact ⟨graph, hcompiled, (hgraph graph).mp ⟨_, hcompiled⟩⟩
  · have hfits : generous.fitsOrder .default ⟨Engine.defaultCommand⟩ {} reportOrder = true := by
      decide +kernel
    obtain ⟨compiled, hcompiled⟩ := exists_compile_of_fitsOrder hfits
    have hwarned : compiled.warnings ≠ [] := fun hnone => by
      obtain ⟨-, hpermissions, -⟩ := compile_eq_ok_iff.mp hcompiled
      have hpasses := checkPermissions_true_eq_ok_iff.mpr ⟨rfl, hnone ▸ hpermissions⟩
      have hfails : (generous.checkPermissions true).isOk = false := by decide +kernel
      rw [hpasses] at hfails
      cases hfails
    have hstrict : (generous.strict || CompileOptions.strict { strict := true }) = true := rfl
    obtain ⟨-, -, hrejected⟩ := compile_strict_iff .default ⟨Engine.defaultCommand⟩ hstrict
    obtain ⟨audit, -, hreport, herror⟩ := hrejected compiled hcompiled hwarned
    exact ⟨compiled, audit, hcompiled, hreport, herror⟩

end AgentGate.Workflow
