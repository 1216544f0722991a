import AgentGate.UnknownName

/-!
# Permissions of a job

A job is granted a level of access, `none < read < write`, on each of sixteen scopes. A scope that
a grant does not mention counts as `none`, but the grant remembers that it was not mentioned, since
only the entries it holds are written out.

- `Permissions.level?`: what a grant says of a scope; `Permissions.get`: the level that results.
- `Permissions.merge`: raise each scope to the higher of two levels.
- `Permissions.get_merge`: after a merge each scope has the higher of the two levels.
-/

namespace AgentGate

/-! ## Scopes and levels -/

/-- What a permission is about. -/
inductive Scope where
  | actions | attestations | checks | contents | deployments | discussions | idToken | issues
  | models | organizationProjects | packages | pages | pullRequests | repositoryProjects
  | securityEvents | statuses
  deriving DecidableEq, Repr

namespace Scope

/-- All scopes, in the order in which grants list them. -/
def all : List Scope :=
  [actions, attestations, checks, contents, deployments, discussions, idToken, issues, models,
    organizationProjects, packages, pages, pullRequests, repositoryProjects, securityEvents,
    statuses]

/-- The key of a scope in a `permissions` table. -/
def name : Scope → String
  | actions => "actions"
  | attestations => "attestations"
  | checks => "checks"
  | contents => "contents"
  | deployments => "deployments"
  | discussions => "discussions"
  | idToken => "id-token"
  | issues => "issues"
  | models => "models"
  | organizationProjects => "organization-projects"
  | packages => "packages"
  | pages => "pages"
  | pullRequests => "pull-requests"
  | repositoryProjects => "repository-projects"
  | securityEvents => "security-events"
  | statuses => "statuses"

/-- The scope of a name. -/
def ofName (text : String) : Except UnknownName Scope :=
  match all.find? fun scope => scope.name = text with
  | some scope => .ok scope
  | none => .error (.scope text)

@[simp] theorem mem_all (scope : Scope) : scope ∈ all := by cases scope <;> decide

end Scope

/-- How much access is granted. -/
inductive Level where
  | none | read | write
  deriving DecidableEq, Repr

namespace Level

/-- The place of a level in the order `none < read < write`. -/
def rank : Level → Nat
  | .none => 0
  | .read => 1
  | .write => 2

instance : LE Level := ⟨fun a b => a.rank ≤ b.rank⟩
instance : LT Level := ⟨fun a b => a.rank < b.rank⟩
instance (a b : Level) : Decidable (a ≤ b) := inferInstanceAs (Decidable (a.rank ≤ b.rank))
instance (a b : Level) : Decidable (a < b) := inferInstanceAs (Decidable (a.rank < b.rank))

/-- The word for a level. -/
def name : Level → String
  | .none => "none"
  | .read => "read"
  | .write => "write"

/-- The level of a word. -/
def ofName (text : String) : Except UnknownName Level :=
  match [Level.none, .read, .write].find? fun level => level.name = text with
  | some level => .ok level
  | Option.none => .error (.level text)

end Level

/-! ## Grants -/

/-- What is granted on each scope; `none` where the scope is not mentioned. -/
@[ext] structure Permissions where
  level? : Scope → Option Level

namespace Permissions

/-- The grant that mentions no scope. -/
def empty : Permissions := ⟨fun _ => none⟩

instance : EmptyCollection Permissions := ⟨empty⟩
instance : Inhabited Permissions := ⟨empty⟩

/-- The grant of one level on every scope. -/
def uniform (level : Level) : Permissions := ⟨fun _ => some level⟩

/-- The level on a scope, `none` when the scope is not mentioned. -/
def get (p : Permissions) (scope : Scope) : Level :=
  (p.level? scope).getD .none

/-- The grant with the level of one scope fixed. -/
def set (p : Permissions) (scope : Scope) (level : Level) : Permissions :=
  ⟨fun other => if other = scope then some level else p.level? other⟩

/-- Fix the levels of several scopes; the last entry of a scope counts. -/
def ofList (entries : List (Scope × Level)) : Permissions :=
  entries.foldl (fun p entry => p.set entry.1 entry.2) empty

/-- Raise each scope to the higher of the two levels. -/
def merge (p q : Permissions) : Permissions :=
  ⟨fun scope =>
    match q.level? scope with
    | some level => if p.get scope < level then some level else p.level? scope
    | none => p.level? scope⟩

/-- The scopes that are mentioned, with their levels. -/
def entries (p : Permissions) : List (Scope × Level) :=
  Scope.all.filterMap fun scope => (p.level? scope).map fun level => (scope, level)

/-- Whether no scope is mentioned. -/
def isEmpty (p : Permissions) : Bool :=
  Scope.all.all fun scope => (p.level? scope).isNone

/-- Whether no scope is granted `write`. -/
def isReadOnly (p : Permissions) : Bool :=
  p.entries.all fun entry => entry.2 < Level.write

instance : DecidableEq Permissions := fun p q =>
  decidable_of_iff (∀ scope ∈ Scope.all, p.level? scope = q.level? scope) <| by
    constructor
    · intro same
      exact Permissions.ext (funext fun scope => same scope scope.mem_all)
    · rintro rfl _ _
      rfl

/-! ## Levels after each operation -/

@[simp] theorem get_empty (scope : Scope) : (∅ : Permissions).get scope = .none := rfl

@[simp] theorem get_uniform (level : Level) (scope : Scope) :
    (uniform level).get scope = level := rfl

@[simp] theorem get_set (p : Permissions) (scope : Scope) (level : Level) (other : Scope) :
    (p.set scope level).get other = if other = scope then level else p.get other := by
  unfold get set
  by_cases h : other = scope <;> simp [h]

/-- After a merge each scope has the higher of the two levels. -/
theorem get_merge (p q : Permissions) (scope : Scope) :
    (p.merge q).get scope = if p.get scope < q.get scope then q.get scope else p.get scope := by
  unfold merge get
  cases hq : q.level? scope with
  | none =>
    have least : ¬ (p.level? scope).getD Level.none < Level.none := Nat.not_lt_zero _
    simp [hq, least]
  | some level => by_cases h : (p.level? scope).getD .none < level <;> simp [h, hq]

/-- A scope is among the entries with exactly the level that the grant gives it. -/
theorem mem_entries {p : Permissions} {scope : Scope} {level : Level} :
    (scope, level) ∈ p.entries ↔ p.level? scope = some level := by
  simp [entries]

end Permissions

end AgentGate
