import AgentGate.Permission.Audit
import AgentGate.Proofs.Table
import AgentGate.Proofs.Toolset.Spelling

/-!
# What an audit finds

An audit compares levels scope by scope. What it requires depends on the names in the list of
toolsets and not on the grant, and each of its findings depends on the required and the granted
level of one scope. Since the names count as a set, so does the whole audit.

- `Permissions.required_audit`, `Permissions.excessChecked_audit_iff`: what does not depend on the
  grant.
- `Permissions.level?_missing_audit`, `Permissions.level?_excess_audit`: the findings on a scope.
- `Audit.attribution_congr`: the order of the names does not show in the attribution.
- `Permissions.audit_of_sameList`: the spelling of a list does not show in an audit.
- `Permissions.audit_exact`: the audit of a list with names in it.
-/

namespace AgentGate

namespace Toolset

variable {texts : List String} {text : String}

/-- Only blanks stand for no name. -/
theorem expandEntry_eq_nil_iff : expandEntry text = [] ↔ Text.allBlank text = true := by
  rw [← Text.trim_eq_empty_iff]
  refine ⟨fun h => ?_, expandEntry_of_trim_eq_empty⟩
  by_contra hname
  simp only [expandEntry, if_neg hname] at h
  split at h
  · exact absurd h (by decide)
  · split at h
    · exact absurd h (by decide)
    · exact List.cons_ne_nil _ _ h

theorem expand_eq_nil_iff : expand texts = [] ↔ texts.all Text.allBlank = true := by
  rw [List.eq_nil_iff_forall_not_mem, List.all_eq_true]
  simp only [mem_expand_iff, not_exists, not_and]
  constructor
  · intro h text htext
    rw [← expandEntry_eq_nil_iff, List.eq_nil_iff_forall_not_mem]
    exact fun name => h name text htext
  · intro h name text htext
    rw [expandEntry_eq_nil_iff.mpr (h text htext)]
    exact List.not_mem_nil

theorem all_allBlank_eq_false_iff :
    texts.all Text.allBlank = false ↔ ∃ text ∈ texts, Text.allBlank text = false := by
  rw [List.all_eq_false]
  simp only [Bool.not_eq_true]

end Toolset

namespace Audit

variable {names names' : List String} {missing : Permissions} {name : String}

/-- The missing scopes that a toolset needs, if there are any. -/
def attributed? (missing : Permissions) (name : String) : Option (List Scope) :=
  match Toolset.find? name with
  | some toolset =>
    match (missing.entries.map Prod.fst).filter toolset.touches with
    | [] => none
    | scopes => some scopes
  | none => none

theorem attribution_eq (names : List String) (missing : Permissions) :
    attribution names missing = Table.ofList (names.filterMap fun name =>
      (attributed? missing name).map fun scopes => (name, scopes)) := by
  rw [attribution]
  congr 2
  funext name
  rw [attributed?]
  cases Toolset.find? name with
  | none => rfl
  | some toolset =>
    dsimp only
    cases (missing.entries.map Prod.fst).filter toolset.touches with
    | nil => rfl
    | cons => rfl

theorem get?_attribution_iff {scopes : List Scope} :
    (attribution names missing).get? name = some scopes
      ↔ name ∈ names ∧ attributed? missing name = some scopes := by
  rw [attribution_eq, Table.get?_ofList_filterMap_iff]

theorem attribution_congr (h : ∀ name, name ∈ names ↔ name ∈ names') (missing : Permissions) :
    attribution names missing = attribution names' missing := by
  refine Table.ext_get? fun name => Option.ext fun scopes => ?_
  rw [get?_attribution_iff, get?_attribution_iff, h]

end Audit

namespace Permissions

variable {texts texts' : List String}

/-! ## What does not depend on the grant -/

theorem required_audit (granted : Permissions) (texts : List String) (readOnly : Bool) :
    (granted.audit texts readOnly).required
      = Toolset.required (Toolset.expand texts) readOnly := by
  rw [audit]
  split
  case isTrue hblank =>
    rw [Toolset.expand_eq_nil_iff.mpr hblank]
    rfl
  case isFalse => rfl

/-- Excess is looked for when there are names and none of them is `all`. -/
theorem excessChecked_audit_iff (granted : Permissions) (texts : List String) (readOnly : Bool) :
    (granted.audit texts readOnly).excessChecked = true
      ↔ (∃ text ∈ texts, Text.allBlank text = false) ∧ ∀ text ∈ texts, Text.trim text ≠ "all" := by
  rw [audit, ← Toolset.all_allBlank_eq_false_iff]
  split
  case isTrue hblank =>
    rw [hblank]
    exact iff_of_false Bool.false_ne_true fun h => Bool.false_ne_true h.1.symm
  case isFalse hnames =>
    rw [and_iff_right (Bool.eq_false_iff.mpr hnames), Bool.not_eq_true', List.any_eq_false]
    simp only [decide_eq_true_eq]

theorem required_audit_eq (granted other : Permissions) (texts : List String) (readOnly : Bool) :
    (granted.audit texts readOnly).required = (other.audit texts readOnly).required := by
  rw [required_audit, required_audit]

theorem excessChecked_audit_eq (granted other : Permissions) (texts : List String)
    (readOnly : Bool) :
    (granted.audit texts readOnly).excessChecked = (other.audit texts readOnly).excessChecked := by
  rw [Bool.eq_iff_iff, excessChecked_audit_iff, excessChecked_audit_iff]

/-! ## Findings on one scope -/

/-- A scope is missing when less is granted than required. -/
theorem level?_missing_audit (granted : Permissions) (texts : List String) (readOnly : Bool)
    (scope : Scope) : (granted.audit texts readOnly).missing.level? scope
      = if granted.get scope < (granted.audit texts readOnly).required.get scope
        then some ((granted.audit texts readOnly).required.get scope) else none := by
  rw [audit]
  split
  case isTrue => exact (if_neg (Level.not_lt_none _)).symm
  case isFalse => exact filter_level? _ scope (granted.get scope)

/-- A scope is in excess when excess counts and more is granted than required. -/
theorem level?_excess_audit (granted : Permissions) (texts : List String) (readOnly : Bool)
    (scope : Scope) : (granted.audit texts readOnly).excess.level? scope
      = if (granted.audit texts readOnly).excessChecked = true
          ∧ (granted.audit texts readOnly).required.get scope < granted.get scope
        then some (granted.get scope) else none := by
  rw [audit]
  split
  case isTrue => exact (if_neg fun h => Bool.false_ne_true h.1).symm
  case isFalse =>
    dsimp only
    split
    case isTrue hchecked =>
      simp only [hchecked, true_and]
      exact filter_level? granted scope _
    case isFalse hunchecked => exact (if_neg fun h => hunchecked h.1).symm

/-! ## The whole audit -/

/-- However a list of toolsets is written, an audit with it comes out the same. -/
theorem audit_of_sameList (h : Toolset.SameList texts texts') (granted : Permissions)
    (readOnly : Bool) : granted.audit texts readOnly = granted.audit texts' readOnly := by
  have hblank : texts.all Text.allBlank = texts'.all Text.allBlank := by
    rw [Bool.eq_iff_iff, ← Toolset.expand_eq_nil_iff, ← Toolset.expand_eq_nil_iff,
      List.eq_nil_iff_forall_not_mem, List.eq_nil_iff_forall_not_mem]
    simp only [h.mem_expand_iff]
  have hall : (texts.any fun text => Text.trim text = "all")
      = texts'.any fun text => Text.trim text = "all" := by
    rw [Bool.eq_iff_iff, List.any_eq_true, List.any_eq_true]
    simp only [decide_eq_true_eq]
    exact h.exists_all_iff
  have hrequired := Toolset.required_congr h.mem_expand_iff readOnly
  simp only [audit, hblank, hall, hrequired, Audit.attribution_congr h.mem_expand_iff]

/-- **The audit of a list with names in it.** A scope requires `write` when a named toolset writes
it and the toolsets may write, otherwise `read` when one reads it, and otherwise nothing. It is
missing at this level when less is granted, and in excess at the granted level when more is granted
and no entry is the word `all`. How the list is written does not show anywhere. -/
theorem audit_exact (h : ∃ text ∈ texts, Text.allBlank text = false) (granted : Permissions)
    (readOnly : Bool) :
    (∀ scope, (granted.audit texts readOnly).required.get scope
      = Toolset.need (Toolset.expand texts) readOnly scope)
    ∧ (∀ scope, (granted.audit texts readOnly).missing.level? scope
      = if granted.get scope < Toolset.need (Toolset.expand texts) readOnly scope
        then some (Toolset.need (Toolset.expand texts) readOnly scope) else none)
    ∧ (∀ scope, (granted.audit texts readOnly).excess.level? scope
      = if (∀ text ∈ texts, Text.trim text ≠ "all")
          ∧ Toolset.need (Toolset.expand texts) readOnly scope < granted.get scope
        then some (granted.get scope) else none)
    ∧ ∀ texts', Toolset.SameList texts texts' →
      granted.audit texts' readOnly = granted.audit texts readOnly := by
  have hrequired : ∀ scope, (granted.audit texts readOnly).required.get scope
      = Toolset.need (Toolset.expand texts) readOnly scope := fun scope => by
    rw [required_audit, Toolset.get_required]
  refine ⟨hrequired, fun scope => ?_, fun scope => ?_, fun texts' hsame => ?_⟩
  · rw [level?_missing_audit, hrequired]
  · rw [level?_excess_audit, hrequired]
    simp only [excessChecked_audit_iff, h, true_and]
  · exact (audit_of_sameList hsame granted readOnly).symm

/-- A list of toolsets with blanks, a blank entry and a keyword. -/
def scanners : List String :=
  ["\tcode_security ", "default", "", "dependabot"]

/-- The same list in plain words. -/
def plainScanners : List String :=
  Toolset.defaultNames ++ ["code_security", "dependabot"]

theorem sameList_scanners : Toolset.SameList scanners plainScanners := by
  have htrimmed : Toolset.SameList scanners ["code_security", "default", "", "dependabot"] :=
    .symm _ _ <| .rel _ _ <| @Toolset.Respells.surround "\t" "code_security" " " _ rfl rfl
  have hordered : Toolset.SameList ["code_security", "default", "", "dependabot"]
      ["", "default", "code_security", "dependabot"] :=
    .rel _ _ <| .reorder <| by decide
  have hnonblank : Toolset.SameList ["", "default", "code_security", "dependabot"]
      ["default", "code_security", "dependabot"] :=
    .symm _ _ <| .rel _ _ <| .blank rfl
  have hmembers : Toolset.SameList ["default", "code_security", "dependabot"] plainScanners :=
    .rel _ _ <| .members <| by decide
  exact htrimmed.trans _ _ _ <| hordered.trans _ _ _ <| hnonblank.trans _ _ _ hmembers

/-- A grant for reading, of one scope that the list is about and one that it is not about. -/
def reading : Permissions :=
  ofList [(.actions, .read), (.securityEvents, .read)]

theorem scanners_audit :
    (∃ text ∈ scanners, Text.allBlank text = false)
      ∧ (reading.audit scanners false).required.get .securityEvents = .write
      ∧ (reading.audit scanners false).missing.level? .securityEvents = some .write
      ∧ (reading.audit scanners false).excess.level? .actions = some .read
      ∧ Toolset.SameList scanners plainScanners
      ∧ reading.audit plainScanners false = reading.audit scanners false := by
  have hnames : ∃ text ∈ scanners, Text.allBlank text = false := by decide
  obtain ⟨hrequired, hmissing, hexcess, hspelling⟩ := audit_exact hnames reading false
  exact ⟨hnames, (hrequired _).trans (by decide), (hmissing _).trans (by decide),
    (hexcess _).trans (by decide), sameList_scanners, hspelling _ sameList_scanners⟩

end Permissions

end AgentGate
