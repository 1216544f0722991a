import AgentGate.Proofs.Permission.Audit

/-!
# Repairing a grant

An audit proposes two changes of a grant: to add what is missing, and to take back what is in
excess. The first one lifts each scope to the level that is required, and no further; the second
one lowers the others to it. So the first change alone makes the audit accept the grant, the excess
apart, at the lowest levels that do, and both together leave nothing to find.

- `Audit.raise`, `Audit.lower`: the two changes.
- `Permissions.missing_audit_eq_empty_iff`: nothing is missing when all that is required is granted.
- `Permissions.get_raise`: adding what is missing takes the higher of two levels.
- `Permissions.audit_repair`: the changes work, and the first one is the least that does.
-/

namespace AgentGate

namespace Audit

/-- The grant with what is missing added. -/
def raise (audit : Audit) (granted : Permissions) : Permissions :=
  granted.merge audit.missing

/-- The grant with each scope in excess put at the level that is required. -/
def lower (audit : Audit) (granted : Permissions) : Permissions :=
  ⟨fun scope =>
    if (audit.excess.level? scope).isSome then some (audit.required.get scope)
    else granted.level? scope⟩

theorem get_lower (audit : Audit) (granted : Permissions) (scope : Scope) :
    (audit.lower granted).get scope = if (audit.excess.level? scope).isSome
      then audit.required.get scope else granted.get scope := by
  unfold lower Permissions.get
  dsimp only
  split <;> rfl

end Audit

namespace Permissions

variable {granted : Permissions} {texts : List String} {readOnly : Bool}

/-! ## When nothing is found -/

/-- Nothing is missing when everything is granted that is required in the audit of any grant. -/
theorem missing_audit_eq_empty_iff (other : Permissions) :
    (granted.audit texts readOnly).missing = ∅
      ↔ ∀ scope, (other.audit texts readOnly).required.get scope ≤ granted.get scope := by
  rw [eq_empty_iff_level?, required_audit_eq other granted]
  simp only [level?_missing_audit, ite_eq_right_iff, reduceCtorEq, imp_false, not_lt]

/-- Nothing is in excess when, if excess counts, nothing is granted beyond what is required in the
audit of any grant. -/
theorem excess_audit_eq_empty_iff (other : Permissions) :
    (granted.audit texts readOnly).excess = ∅
      ↔ ((other.audit texts readOnly).excessChecked = true →
        ∀ scope, granted.get scope ≤ (other.audit texts readOnly).required.get scope) := by
  rw [eq_empty_iff_level?, required_audit_eq other granted, excessChecked_audit_eq other granted]
  simp only [level?_excess_audit, ite_eq_right_iff, reduceCtorEq, imp_false, not_and, not_lt]
  exact forall_comm

/-! ## What the changes do to the levels -/

/-- Adding what is missing takes the higher of the granted and the required level. -/
theorem get_raise (granted : Permissions) (texts : List String) (readOnly : Bool) (scope : Scope) :
    ((granted.audit texts readOnly).raise granted).get scope
      = max (granted.get scope) ((granted.audit texts readOnly).required.get scope) := by
  have hmissing := level?_missing_audit granted texts readOnly scope
  rw [Audit.raise, get_merge_eq_max]
  split at hmissing
  case isTrue => rw [get_of_level? hmissing]
  case isFalse hgranted =>
    have hnone : (granted.audit texts readOnly).missing.get scope = .none := by
      rw [get, hmissing, Option.getD_none]
    rw [hnone, max_eq_left (Level.none_le _), max_eq_left (not_lt.mp hgranted)]

/-- Where excess counts, both changes together leave the required levels. -/
theorem get_lower_raise (granted : Permissions) (texts : List String) (readOnly : Bool)
    (scope : Scope) :
    ((granted.audit texts readOnly).lower ((granted.audit texts readOnly).raise granted)).get scope
      = if (granted.audit texts readOnly).excessChecked
        then (granted.audit texts readOnly).required.get scope
        else max (granted.get scope) ((granted.audit texts readOnly).required.get scope) := by
  rw [Audit.get_lower, get_raise, level?_excess_audit]
  cases (granted.audit texts readOnly).excessChecked with
  | false => simp
  | true =>
    -- A scope that is not in excess is at the required level already.
    by_cases hexcess : (granted.audit texts readOnly).required.get scope < granted.get scope
    · simp [hexcess]
    · simp [hexcess, max_eq_right (not_lt.mp hexcess)]

/-- Adding what is missing leaves the excess as it is. -/
theorem excess_audit_raise (granted : Permissions) (texts : List String) (readOnly : Bool) :
    (((granted.audit texts readOnly).raise granted).audit texts readOnly).excess
      = (granted.audit texts readOnly).excess := by
  refine Permissions.ext (funext fun scope => ?_)
  rw [level?_excess_audit, level?_excess_audit, get_raise, required_audit_eq _ granted,
    excessChecked_audit_eq _ granted]
  rcases lt_or_ge ((granted.audit texts readOnly).required.get scope) (granted.get scope)
    with hmore | hless
  · rw [max_eq_left hmore.le]
  · rw [max_eq_right hless, if_neg fun h => lt_irrefl _ h.2, if_neg fun h => hless.not_gt h.2]

/-- **The proposed changes of a grant work, and add no more than is needed.** With what is missing
added, nothing is missing any more, and the excess is the same as before. With the scopes in excess
put at the required level besides, nothing is found at all. And every grant of at least the same
levels in which nothing is missing grants at least what the first change does. -/
theorem audit_repair (granted : Permissions) (texts : List String) (readOnly : Bool) :
    let audit := granted.audit texts readOnly
    let raised := audit.raise granted
    let repaired := audit.lower raised
    (raised.audit texts readOnly).missing = ∅
      ∧ (raised.audit texts readOnly).excess = audit.excess
      ∧ (repaired.audit texts readOnly).missing = ∅
      ∧ (repaired.audit texts readOnly).excess = ∅
      ∧ ∀ other : Permissions, (∀ scope, granted.get scope ≤ other.get scope) →
        (other.audit texts readOnly).missing = ∅ →
        ∀ scope, raised.get scope ≤ other.get scope := by
  intro audit raised repaired
  have hraised : ∀ scope, raised.get scope = max (granted.get scope) (audit.required.get scope) :=
    get_raise granted texts readOnly
  have hrepaired : ∀ scope, repaired.get scope = if audit.excessChecked
      then audit.required.get scope else max (granted.get scope) (audit.required.get scope) :=
    get_lower_raise granted texts readOnly
  refine ⟨?_, excess_audit_raise granted texts readOnly, ?_, ?_, fun other hmore hnone scope => ?_⟩
  · rw [missing_audit_eq_empty_iff granted]
    intro scope
    rw [hraised]
    exact le_max_right _ _
  · rw [missing_audit_eq_empty_iff granted]
    intro scope
    rw [hrepaired]
    split
    · exact le_rfl
    · exact le_max_right _ _
  · rw [excess_audit_eq_empty_iff granted]
    intro hchecked scope
    rw [hrepaired, if_pos hchecked]
  · rw [hraised]
    exact max_le (hmore scope) ((missing_audit_eq_empty_iff granted).mp hnone scope)

theorem reading_repair :
    ((reading.audit scanners false).missing ≠ ∅ ∧ (reading.audit scanners false).excess ≠ ∅)
      ∧ (((reading.audit scanners false).lower ((reading.audit scanners false).raise
        reading)).audit scanners false).excess = ∅
      ∧ ((∀ scope, reading.get scope ≤ (uniform .write).get scope)
        ∧ ((uniform .write).audit scanners false).missing = ∅)
      ∧ ∀ scope, ((reading.audit scanners false).raise reading).get scope
        ≤ (uniform .write).get scope := by
  have hmore : ∀ scope, reading.get scope ≤ (uniform .write).get scope := by
    intro scope
    cases scope <;> decide
  have hnone : ((uniform .write).audit scanners false).missing = ∅ := by decide +kernel
  obtain ⟨-, -, -, hclean, hleast⟩ := audit_repair reading scanners false
  exact ⟨by decide +kernel, hclean, ⟨hmore, hnone⟩, hleast (uniform .write) hmore hnone⟩

end Permissions

end AgentGate
