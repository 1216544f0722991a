import AgentGate.Proofs.Manifest
import AgentGate.Proofs.Text.Bytes

/-!
# What an environment is rejected for

The check against a manifest looks at every environment from two sides: for variables that the
manifest does not list, and for variables that it requires. The first side comes first. There the
smallest name is reported; on the other side all names that are missing.

- `EnvManifest.Declares`, `EnvManifest.Requires`: what a manifest says of a name.
- `EnvManifest.Lacks`: the required names that are missing, as they are reported.
- `EnvManifest.undeclared?_eq_some_iff`, `EnvManifest.lacks_missing`: what each side finds.
- `EnvManifest.check_verdict`: when an environment passes, and what is reported otherwise.
-/

namespace AgentGate

namespace EnvManifest

variable {manifest : EnvManifest} {env : Table String} {name : String}

/-! ## What a manifest says of a name -/

/-- The manifest lists a variable of this name. -/
def Declares (manifest : EnvManifest) (name : String) : Prop :=
  ∃ var ∈ manifest.vars, var.name = name

/-- The manifest lists a variable of this name as one that has to be there. -/
def Requires (manifest : EnvManifest) (name : String) : Prop :=
  ∃ var ∈ manifest.vars, var.name = name ∧ var.isRequired = true

/-- The names of the required variables that an environment lacks: these and no others, each once,
and in the order of the manifest. -/
structure Lacks (manifest : EnvManifest) (env : Table String) (names : List String) : Prop where
  exactly : ∀ name, name ∈ names ↔ manifest.Requires name ∧ name ∉ env.keys
  distinct : names.Nodup
  inOrder : names.Sublist (manifest.vars.map EnvVar.name)

theorem declares_iff : manifest.Declares name ↔ name ∈ manifest.vars.map EnvVar.name :=
  List.mem_map.symm

theorem requires_iff : manifest.Requires name ↔ name ∈ manifest.requiredNames := by
  rw [requiredNames, List.mem_map]
  constructor
  · rintro ⟨var, hmem, hname, hrequired⟩
    exact ⟨var, List.mem_filter.mpr ⟨hmem, hrequired⟩, hname⟩
  · rintro ⟨var, hmem, hname⟩
    obtain ⟨hmem, hrequired⟩ := List.mem_filter.mp hmem
    exact ⟨var, hmem, hname, hrequired⟩

/-- A manifest lists each of its variables once. -/
theorem nodup_names (type : OutputType) : ((ofType type).vars.map EnvVar.name).Nodup := by
  cases type <;> decide

/-! ## What is found on each side -/

/-- The variable that is reported is the smallest one that is not listed. -/
theorem undeclared?_eq_some_iff : manifest.undeclared? env = some name
    ↔ name ∈ env.keys ∧ ¬ manifest.Declares name
      ∧ ∀ other ∈ env.keys, ¬ manifest.Declares other → name ≤ other := by
  simp only [undeclared?, Table.find?_keys_eq_some_iff, var?_isNone_iff, declares_iff]

theorem exists_undeclared? (h : ∃ key ∈ env.keys, ¬ manifest.Declares key) :
    ∃ name, manifest.undeclared? env = some name := by
  obtain ⟨key, hkey, hdeclares⟩ := h
  refine Option.ne_none_iff_exists'.mp fun hnone => ?_
  exact hdeclares (declares_iff.mpr (undeclared?_eq_none_iff.mp hnone key hkey))

/-- Those are missing that are required and not there. -/
theorem lacks_missing (hdistinct : (manifest.vars.map EnvVar.name).Nodup) :
    manifest.Lacks env (manifest.missing env) := by
  have hsublist : (manifest.missing env).Sublist (manifest.vars.map EnvVar.name) :=
    List.filter_sublist.trans (List.filter_sublist.map EnvVar.name)
  refine ⟨fun name => ?_, hdistinct.sublist hsublist, hsublist⟩
  rw [missing, List.mem_filter, requires_iff, Bool.not_eq_true', ← Bool.not_eq_true,
    Table.contains_iff]

theorem check_of_undeclared (h : manifest.undeclared? env = some name) :
    manifest.check env = .error (.undeclared name) := by
  rw [check, h]

theorem check_of_missing (hdeclared : manifest.undeclared? env = none)
    (hmissing : manifest.missing env ≠ []) :
    manifest.check env = .error (.missing (manifest.missing env)) := by
  rw [check, hdeclared]
  cases hnames : manifest.missing env with
  | nil => exact absurd hnames hmissing
  | cons first rest => rfl

/-! ## The verdict -/

/-- **An environment passes exactly when all its variables are listed and all required ones are
there.** Otherwise a variable that is not listed goes first, and of those the smallest by the bytes
of its name; only when there is none are missing variables reported, and then all of them. The
look-up by the name of a type gives the same missing names, and none for a text that names no
type. -/
theorem check_verdict (type : OutputType) (env : Table String) :
    ((ofType type).check env = .ok ()
      ↔ (∀ key ∈ env.keys, (ofType type).Declares key)
        ∧ ∀ name, (ofType type).Requires name → name ∈ env.keys)
    ∧ ((∃ key ∈ env.keys, ¬ (ofType type).Declares key) →
      ∃ name, (ofType type).check env = .error (.undeclared name)
        ∧ name ∈ env.keys ∧ ¬ (ofType type).Declares name
        ∧ ∀ other ∈ env.keys, ¬ (ofType type).Declares other →
          Text.bytes name ≤ Text.bytes other)
    ∧ ((∀ key ∈ env.keys, (ofType type).Declares key) →
      (∃ name, (ofType type).Requires name ∧ name ∉ env.keys) →
      ∃ names, (ofType type).check env = .error (.missing names) ∧ (ofType type).Lacks env names)
    ∧ (ofType type).Lacks env (missingIn type.name env)
    ∧ ∀ text, (∀ known : OutputType, known.name ≠ text) → missingIn text env = [] := by
  have hlacks : (ofType type).Lacks env ((ofType type).missing env) :=
    lacks_missing (nodup_names type)
  refine ⟨?passes, fun hundeclared => ?undeclared, fun hdeclared hlacking => ?missing, ?known,
    fun text hunknown => ?unknown⟩
  case passes => simp only [check_eq_ok_iff, declares_iff, requires_iff]
  case undeclared =>
    obtain ⟨name, hname⟩ := exists_undeclared? hundeclared
    obtain ⟨hkey, hdeclares, hsmallest⟩ := undeclared?_eq_some_iff.mp hname
    exact ⟨name, check_of_undeclared hname, hkey, hdeclares, fun other hother hnot =>
      Text.le_iff_bytes_le.mp (hsmallest other hother hnot)⟩
  case missing =>
    have hnone : (ofType type).undeclared? env = none :=
      undeclared?_eq_none_iff.mpr fun key hkey => declares_iff.mp (hdeclared key hkey)
    obtain ⟨name, hname⟩ := hlacking
    have hmem : name ∈ (ofType type).missing env := (hlacks.exactly name).mpr hname
    exact ⟨_, check_of_missing hnone (List.ne_nil_of_mem hmem), hlacks⟩
  case known =>
    rw [missingIn, OutputType.ofName?_name]
    exact hlacks
  case unknown =>
    have hnone : OutputType.ofName? text = none :=
      List.find?_eq_none.mpr fun known _ => by simpa using hunknown known
    rw [missingIn, hnone]

/-- An environment in which two variables are misspelt and one that is required is missing. -/
def misspeltEnv : Table String :=
  .ofList [("GITHUB_TOKEN", "t"), ("GH_AW_ÁGENT_OUTPUT", "o.json"), ("GH_AW_NOOP-MAX", "3")]

/-- An environment with nothing but the token. -/
def tokenEnv : Table String :=
  .ofList [("GITHUB_TOKEN", "t")]

/-- The letter outside ASCII has the larger bytes, and the missing variable is not reported before
the misspelt ones are put right. -/
theorem handmade_verdict :
    ((∃ key ∈ misspeltEnv.keys, ¬ (ofType .noop).Declares key)
      ∧ ∃ name, (ofType .noop).check misspeltEnv = .error (.undeclared name)
        ∧ (∀ other ∈ misspeltEnv.keys, ¬ (ofType .noop).Declares other →
          Text.bytes name ≤ Text.bytes other)
        ∧ name = "GH_AW_NOOP-MAX")
    ∧ ((∀ key ∈ tokenEnv.keys, (ofType .createPullRequest).Declares key)
      ∧ (∃ name, (ofType .createPullRequest).Requires name ∧ name ∉ tokenEnv.keys)
      ∧ ∃ names, (ofType .createPullRequest).check tokenEnv = .error (.missing names)
        ∧ (ofType .createPullRequest).Lacks tokenEnv names
        ∧ names = ["GH_AW_WORKFLOW_NAME", "GH_AW_WORKFLOW_ID", "GH_AW_BASE_BRANCH",
          "GH_AW_AGENT_OUTPUT"])
    ∧ (∀ known : OutputType, known.name ≠ "create_gist")
    ∧ missingIn "create_gist" tokenEnv = [] := by
  have hundeclared : ∃ key ∈ misspeltEnv.keys, ¬ (ofType .noop).Declares key :=
    ⟨"GH_AW_NOOP-MAX", by decide, by rw [declares_iff]; decide⟩
  have hdeclared : ∀ key ∈ tokenEnv.keys, (ofType .createPullRequest).Declares key := by
    simp only [declares_iff]
    decide
  have hlacking : ∃ name, (ofType .createPullRequest).Requires name ∧ name ∉ tokenEnv.keys :=
    ⟨"GH_AW_BASE_BRANCH", by rw [requires_iff]; decide, by decide⟩
  have hunknown : ∀ known : OutputType, known.name ≠ "create_gist" := by
    intro known
    cases known <;> decide
  obtain ⟨name, hname, -, -, hsmallest⟩ := (check_verdict .noop misspeltEnv).2.1 hundeclared
  obtain ⟨names, hnames, hlacks⟩ :=
    (check_verdict .createPullRequest tokenEnv).2.2.1 hdeclared hlacking
  refine ⟨⟨hundeclared, name, hname, hsmallest, ?_⟩, ⟨hdeclared, hlacking, names, hnames, hlacks,
    ?_⟩, hunknown, (check_verdict .noop tokenEnv).2.2.2.2 _ hunknown⟩
  · have hrun : (ofType .noop).check misspeltEnv = .error (.undeclared "GH_AW_NOOP-MAX") := by
      decide
    injection hname.symm.trans hrun with hfault
    injection hfault
  · have hrun : (ofType .createPullRequest).check tokenEnv
        = .error (.missing ["GH_AW_WORKFLOW_NAME", "GH_AW_WORKFLOW_ID", "GH_AW_BASE_BRANCH",
          "GH_AW_AGENT_OUTPUT"]) := by
      decide
    injection hnames.symm.trans hrun with hfault
    injection hfault

end EnvManifest

end AgentGate
