import AgentGate.Proofs.Permission.Audit

/-!
# Which toolsets miss what

An audit lists the missing scopes under the toolsets that need them. What is missing is decided by
the needs of all toolsets together. So a toolset that only reads a scope is listed with it also when
reading is granted and another toolset would write. Apart from this, a toolset is listed with the
scopes that are missing for the toolset alone, and with no others.

- `Audit.Lists`: a scope is listed under a toolset.
- `Permissions.lists_audit_iff`: it is, if it is missing and the toolset needs it at all.
- `Permissions.missing_alone_iff`: what is missing for one toolset alone.
- `Permissions.lists_iff_missing_alone`: how the two compare.
-/

namespace AgentGate

/-! ## The need of one toolset -/

namespace Toolset

variable {texts names names' : List String} {name text : String} {scope : Scope} {readOnly : Bool}

/-- What an entry stands for are names that stand for themselves. -/
theorem expandEntry_of_mem (h : name ∈ expandEntry text) : expandEntry name = [name] := by
  have hdefault : ∀ name ∈ defaultNames, expandEntry name = [name] := by decide
  have hknown : ∀ name ∈ known.map Toolset.name, expandEntry name = [name] := by decide
  simp only [expandEntry] at h
  split at h
  case isTrue => cases h
  case isFalse hempty =>
    split at h
    case isTrue => exact hdefault name h
    case isFalse hnotDefault =>
      split at h
      case isTrue => exact hknown name h
      case isFalse hnotAll =>
        obtain rfl := List.mem_singleton.mp h
        rw [expandEntry_trim]
        simp only [expandEntry, if_neg hempty, if_neg hnotDefault, if_neg hnotAll]

theorem expand_singleton (h : name ∈ expand texts) : expand [name] = [name] := by
  obtain ⟨text, -, hname⟩ := mem_expand_iff.mp h
  rw [expand, List.flatMap_singleton, expandEntry_of_mem hname]
  rfl

/-- More names need no less. -/
theorem need_mono (h : ∀ name ∈ names, name ∈ names') (readOnly : Bool) (scope : Scope) :
    need names readOnly scope ≤ need names' readOnly scope := by
  refine le_of_forall_lt fun bound hbound => ?_
  obtain ⟨toolset, hknown, hname, hless⟩ := lt_need_iff.mp hbound
  exact lt_need_iff.mpr ⟨toolset, hknown, h _ hname, hless⟩

/-- A toolset touches the scopes on which it needs some level. -/
theorem exists_touches_iff : (∃ toolset, find? name = some toolset ∧ toolset.touches scope = true)
    ↔ need [name] readOnly scope ≠ .none := by
  rw [← Level.none_lt_iff, lt_need_iff]
  refine exists_congr fun toolset => ?_
  rw [find?_eq_some_iff, List.mem_singleton, and_assoc]
  refine and_congr_right fun hknown => and_congr_right fun _ => ?_
  have hreads : scope ∈ toolset.writes → scope ∈ toolset.reads := reads_of_writes hknown
  rw [get_permissions, lt_chosen_iff, touches, Bool.or_eq_true, List.contains_iff_mem,
    List.contains_iff_mem]
  constructor
  · exact fun htouches => .inr ⟨htouches.elim id hreads, by decide⟩
  · rintro (⟨⟨-, hwrites⟩, -⟩ | ⟨hreads, -⟩)
    · exact .inr hwrites
    · exact .inl hreads

end Toolset

/-! ## What is listed -/

namespace Audit

variable {missing : Permissions} {name : String} {scope : Scope}

/-- A scope is listed under a toolset. -/
def Lists (audit : Audit) (name : String) (scope : Scope) : Prop :=
  ∃ scopes, audit.missingByToolset.get? name = some scopes ∧ scope ∈ scopes

theorem exists_attributed?_iff : (∃ scopes, attributed? missing name = some scopes ∧ scope ∈ scopes)
    ↔ (∃ toolset, Toolset.find? name = some toolset ∧ toolset.touches scope = true)
      ∧ missing.level? scope ≠ none := by
  have hmissing : scope ∈ missing.entries.map Prod.fst ↔ missing.level? scope ≠ none := by
    simp [Permissions.mem_entries, Option.ne_none_iff_exists']
  rw [attributed?]
  cases Toolset.find? name with
  | none => simp
  | some toolset =>
    simp only [Option.some.injEq, exists_eq_left']
    rw [and_comm, ← hmissing, ← List.mem_filter]
    -- The empty list of scopes is left out, and has no scope in it.
    cases (missing.entries.map Prod.fst).filter toolset.touches with
    | nil => simp
    | cons first rest => simp

end Audit

namespace Permissions

variable {granted : Permissions} {texts : List String} {readOnly : Bool} {name : String}
  {scope : Scope}

theorem missingByToolset_audit (granted : Permissions) (texts : List String) (readOnly : Bool) :
    (granted.audit texts readOnly).missingByToolset
      = Audit.attribution (Toolset.expand texts) (granted.audit texts readOnly).missing := by
  rw [audit]
  split
  case isTrue hblank =>
    rw [Toolset.expand_eq_nil_iff.mpr hblank]
    rfl
  case isFalse => rfl

theorem mentioned_missing_audit_iff : (granted.audit texts readOnly).missing.level? scope ≠ none
    ↔ granted.get scope < Toolset.need (Toolset.expand texts) readOnly scope := by
  rw [level?_missing_audit, required_audit, Toolset.get_required]
  simp

/-- A scope is listed under a toolset of the list that needs it at all, if it is missing. -/
theorem lists_audit_iff : (granted.audit texts readOnly).Lists name scope
    ↔ name ∈ Toolset.expand texts ∧ Toolset.need [name] readOnly scope ≠ .none
      ∧ granted.get scope < Toolset.need (Toolset.expand texts) readOnly scope := by
  rw [Audit.Lists, missingByToolset_audit, ← mentioned_missing_audit_iff,
    ← Toolset.exists_touches_iff, ← Audit.exists_attributed?_iff]
  simp only [Audit.get?_attribution_iff, and_assoc, exists_and_left]

theorem missing_alone_iff (h : name ∈ Toolset.expand texts) :
    (granted.audit [name] readOnly).missing.level? scope ≠ none
      ↔ granted.get scope < Toolset.need [name] readOnly scope := by
  rw [mentioned_missing_audit_iff, Toolset.expand_singleton h]

/-- **A toolset is listed with what is missing for it alone, and with what it reads and may read
where writing is missing for another one.** What is missing for it alone are the scopes on which it
needs more than is granted. -/
theorem lists_iff_missing_alone (h : name ∈ Toolset.expand texts) (granted : Permissions)
    (readOnly : Bool) (scope : Scope) :
    ((granted.audit [name] readOnly).missing.level? scope ≠ none
      ↔ granted.get scope < Toolset.need [name] readOnly scope)
    ∧ ((granted.audit texts readOnly).Lists name scope
      ↔ (granted.audit [name] readOnly).missing.level? scope ≠ none
        ∨ (Toolset.need [name] readOnly scope = .read ∧ granted.get scope = .read
          ∧ Toolset.need (Toolset.expand texts) readOnly scope = .write)) := by
  refine ⟨missing_alone_iff h, ?_⟩
  rw [missing_alone_iff h, lists_audit_iff, and_iff_right h]
  have hmono : Toolset.need [name] readOnly scope
      ≤ Toolset.need (Toolset.expand texts) readOnly scope :=
    Toolset.need_mono (List.forall_mem_singleton.mpr h) readOnly scope
  -- Three levels leave no other room between what is granted and what is needed.
  generalize Toolset.need [name] readOnly scope = own at hmono
  generalize Toolset.need (Toolset.expand texts) readOnly scope = whole at hmono
  generalize granted.get scope = level
  revert hmono
  cases own <;> cases whole <;> cases level <;> decide

/-- Two toolsets of which one only reads what the other one writes as well. -/
def scanning : List String :=
  ["dependabot", "code_security"]

/-- What the first of them needs, and not all that the second one does. -/
def readingEvents : Permissions :=
  ofList [(.securityEvents, .read)]

theorem scanning_listed :
    "code_security" ∈ Toolset.expand scanning
      ∧ (readingEvents.audit ["code_security"] false).missing.level? .securityEvents ≠ none
      ∧ (readingEvents.audit scanning false).Lists "code_security" .securityEvents := by
  have hname : "code_security" ∈ Toolset.expand scanning := by decide
  obtain ⟨halone, hlists⟩ := lists_iff_missing_alone hname readingEvents false .securityEvents
  have hmissing := halone.mpr (by decide)
  exact ⟨hname, hmissing, hlists.mpr (.inl hmissing)⟩

/-- A toolset is listed with a scope that is not missing for it alone: it may read the scope, which
is all that it needs. -/
theorem scanning_listed_unneeded :
    "dependabot" ∈ Toolset.expand scanning
      ∧ (readingEvents.audit scanning false).Lists "dependabot" .securityEvents
      ∧ (readingEvents.audit ["dependabot"] false).missing.level? .securityEvents = none := by
  have hname : "dependabot" ∈ Toolset.expand scanning := by decide
  refine ⟨hname, lists_audit_iff.mpr ⟨hname, by decide, by decide⟩, ?_⟩
  by_contra hmissing
  exact absurd ((missing_alone_iff hname).mp hmissing) (by decide)

end Permissions

end AgentGate
