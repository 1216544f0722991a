import AgentGate.Proofs.Job.Edges
import AgentGate.Proofs.Result

/-!
# How job graphs are built

Jobs take up needs, a graph takes up jobs, and in the end all jobs of a graph are wired once.

- `Job.addNeeds_eq`, `Job.mem_needs_addNeeds`: needing jobs adds needs and changes nothing else.
- `Job.nodup_addNeeds`: it adds no need twice.
- `Job.filter_needs_addNeeds`: it does not matter whether some are left out before or after.
- `JobGraph.assemble_eq_ok_iff`: candidates that can be assembled are the jobs of the graph.
- `JobGraph.mem_of_assemble_eq_error`: with names of their own, only their faults prevent that.
- `JobGraph.mem_or_fault_of_assemble_eq_error`: otherwise adding one of them may, too.
- `JobGraph.get?_rewire`: rewiring changes the needs of a job and nothing else.
-/

namespace AgentGate

/-! ## Needs -/

namespace Job

variable {job : Job} {other : String}

theorem addNeed_eq (job : Job) (need : String) :
    job.addNeed need = { job with needs := (job.addNeed need).needs } := by
  unfold addNeed
  split <;> rfl

/-- Needing jobs changes only what is needed. -/
theorem addNeeds_eq (job : Job) (needs : List String) :
    job.addNeeds needs = { job with needs := (job.addNeeds needs).needs } := by
  induction needs generalizing job with
  | nil => rfl
  | cons need rest ih =>
    show (job.addNeed need).addNeeds rest
      = { job with needs := ((job.addNeed need).addNeeds rest).needs }
    rw [ih (job.addNeed need), addNeed_eq job need]

@[simp] theorem condition_addNeeds (job : Job) (needs : List String) :
    (job.addNeeds needs).condition = job.condition := by
  rw [addNeeds_eq]

/-- After needing jobs the needs are the old ones and those. -/
theorem mem_needs_addNeeds {needs : List String} :
    other ∈ (job.addNeeds needs).needs ↔ other ∈ job.needs ∨ other ∈ needs := by
  induction needs generalizing job with
  | nil => exact (or_iff_left List.not_mem_nil).symm
  | cons need rest ih =>
    show other ∈ ((job.addNeed need).addNeeds rest).needs ↔ _
    rw [ih, mem_needs_addNeed, List.mem_cons, or_assoc]

theorem nodup_addNeed {need : String} (h : job.needs.Nodup) : (job.addNeed need).needs.Nodup := by
  unfold addNeed
  split
  case isTrue => exact h
  case isFalse hnew =>
    rw [List.contains_iff_mem] at hnew
    refine List.nodup_append.mpr ⟨h, List.nodup_singleton need, ?_⟩
    intro other hother last hlast heq
    rw [List.mem_singleton.mp hlast] at heq
    exact hnew (heq ▸ hother)

/-- Needing jobs lists none of them twice. -/
theorem nodup_addNeeds {needs : List String} (h : job.needs.Nodup) :
    (job.addNeeds needs).needs.Nodup := by
  induction needs generalizing job with
  | nil => exact h
  | cons need rest ih => exact ih (nodup_addNeed h)

/-- Leaving out needs commutes with needing a job. -/
theorem filter_needs_addNeed {p : String → Bool} {job other : Job}
    (h : other.needs.filter p = job.needs) (need : String) :
    (other.addNeed need).needs.filter p = (job.addNeeds ([need].filter p)).needs := by
  rw [List.filter_singleton]
  by_cases hneed : p need
  · rw [hneed, cond_true]
    show _ = (job.addNeed need).needs
    have hcontains : job.needs.contains need ↔ other.needs.contains need := by
      rw [List.contains_iff_mem, List.contains_iff_mem, ← h, List.mem_filter, and_iff_left hneed]
    by_cases hmem : other.needs.contains need
    · rw [addNeed, addNeed, if_pos hmem, if_pos (hcontains.mpr hmem), h]
    · rw [addNeed, addNeed, if_neg hmem, if_neg (hcontains.not.mpr hmem)]
      simp only [List.filter_append, List.filter_singleton, hneed, cond_true, h]
  · rw [Bool.not_eq_true] at hneed
    rw [hneed, cond_false, addNeed]
    show _ = job.needs
    split
    · exact h
    · simp only [List.filter_append, List.filter_singleton, hneed, cond_false, List.append_nil, h]

/-- Leaving out needs commutes with needing jobs. -/
theorem filter_needs_addNeeds {p : String → Bool} {job other : Job}
    (h : other.needs.filter p = job.needs) (needs : List String) :
    (other.addNeeds needs).needs.filter p = (job.addNeeds (needs.filter p)).needs := by
  induction needs generalizing job other with
  | nil => exact h
  | cons need rest ih =>
    have happend : (need :: rest).filter p = [need].filter p ++ rest.filter p :=
      List.filter_append [need] rest
    rw [happend, addNeeds, addNeeds, List.foldl_append]
    exact ih (filter_needs_addNeed h need)

end Job

/-! ## Graphs -/

namespace JobGraph

variable {g g' : JobGraph} {job : Job}

/-- A graph is its jobs. -/
theorem eq_of_jobs_eq (h : g.jobs = g'.jobs) : g = g' := by
  cases g
  cases g'
  cases h
  rfl

theorem add_eq_ok_iff : g.add job = .ok g'
    ↔ job.name ≠ "" ∧ job.name ∉ g.names ∧ g'.jobs = g.jobs ++ [job] := by
  unfold add
  split
  case isTrue hname => exact ⟨fun h => (nomatch h), fun h => absurd hname h.1⟩
  case isFalse hname =>
    split
    case isTrue htaken => exact ⟨fun h => (nomatch h), fun h => absurd htaken h.2.1⟩
    case isFalse htaken =>
      constructor
      · intro h
        rw [← Except.ok.inj h]
        exact ⟨hname, htaken, rfl⟩
      · rintro ⟨-, -, hjobs⟩
        exact congrArg Except.ok (eq_of_jobs_eq hjobs.symm)

theorem exists_add_eq_ok (hname : job.name ≠ "") (htaken : job.name ∉ g.names) :
    ∃ next, g.add job = .ok next := by
  rw [add, dif_neg hname, dif_neg htaken]
  exact ⟨_, rfl⟩

theorem exists_eq_cons_of_map_ok {ε : Type} {rest : List (Except ε Job)} {jobs : List Job}
    (h : .ok job :: rest = jobs.map .ok) : ∃ more, jobs = job :: more ∧ rest = more.map .ok := by
  cases jobs with
  | nil => cases h
  | cons first more =>
    obtain ⟨hfirst, hrest⟩ := List.cons.inj h
    exact ⟨more, by rw [Except.ok.inj hfirst], hrest⟩

section Assemble

variable {ε : Type} {ofFault : GraphFault → ε} {candidates : List (Except ε Job)}

/-- Candidates that can be added to a graph one after the other are jobs, and follow its own. -/
theorem foldlM_add_eq_ok_iff :
    candidates.foldlM (fun (start : JobGraph) candidate => do
        let job ← candidate
        (start.add job).mapError ofFault) g = .ok g'
      ↔ ∃ jobs, candidates = jobs.map .ok ∧ g'.jobs = g.jobs ++ jobs := by
  induction candidates generalizing g with
  | nil =>
    constructor
    · intro h
      rw [← Except.ok.inj h]
      exact ⟨[], rfl, (List.append_nil _).symm⟩
    · rintro ⟨jobs, hnil, hjobs⟩
      rw [List.map_eq_nil_iff.mp hnil.symm, List.append_nil] at hjobs
      exact congrArg Except.ok (eq_of_jobs_eq hjobs.symm)
  | cons candidate rest ih =>
    rw [List.foldlM_cons]
    simp only [bind_eq_ok_iff, mapError_eq_ok_iff, ih]
    constructor
    · rintro ⟨next, ⟨job, rfl, hadd⟩, jobs, rfl, hjobs⟩
      obtain ⟨-, -, hnext⟩ := add_eq_ok_iff.mp hadd
      exact ⟨job :: jobs, rfl, by rw [hjobs, hnext, List.append_assoc, List.singleton_append]⟩
    · rintro ⟨jobs, hjobs, happend⟩
      cases candidate with
      | error error => cases jobs <;> cases hjobs
      | ok job =>
        obtain ⟨more, rfl, rfl⟩ := exists_eq_cons_of_map_ok hjobs
        -- The final graph has distinct names, so the next job can be added by then.
        have hmem : job ∈ g'.jobs := happend ▸ List.mem_append_right _ List.mem_cons_self
        have hdistinct := g'.distinct
        rw [happend, List.map_append, List.map_cons, List.nodup_append] at hdistinct
        have htaken : job.name ∉ g.names := fun htaken =>
          hdistinct.2.2 job.name htaken job.name List.mem_cons_self rfl
        obtain ⟨next, hadd⟩ := exists_add_eq_ok (g'.named job hmem) htaken
        obtain ⟨-, -, hnext⟩ := add_eq_ok_iff.mp hadd
        exact ⟨next, ⟨job, rfl, hadd⟩, more, rfl, by rw [happend, hnext, List.append_cons]⟩

/-- Candidates that can be assembled are jobs, and the graph lists them in their order. -/
theorem assemble_eq_ok_iff : assemble ofFault candidates = .ok g ↔ candidates = g.jobs.map .ok := by
  rw [assemble, foldlM_add_eq_ok_iff]
  constructor
  · rintro ⟨jobs, hjobs, happend⟩
    rw [happend]
    exact hjobs
  · exact fun hjobs => ⟨g.jobs, hjobs, rfl⟩

/-- Where the jobs among the candidates have names of their own, adding them never fails: an error
is that of a candidate. -/
theorem mem_of_foldlM_add_eq_error {error : ε}
    (hnamed : ∀ job ∈ candidates.filterMap Except.toOption, job.name ≠ "")
    (hdistinct : (g.names ++ (candidates.filterMap Except.toOption).map Job.name).Nodup)
    (h : candidates.foldlM (fun (start : JobGraph) candidate => do
      let job ← candidate
      (start.add job).mapError ofFault) g = .error error) : .error error ∈ candidates := by
  induction candidates generalizing g with
  | nil => cases h
  | cons candidate rest ih =>
    rw [List.foldlM_cons] at h
    cases candidate with
    | error other =>
      rw [← Except.error.inj h]
      exact List.mem_cons_self
    | ok job =>
      have hcons : (Except.ok job :: rest).filterMap Except.toOption
          = job :: rest.filterMap Except.toOption := rfl
      rw [hcons] at hnamed hdistinct
      rw [List.map_cons] at hdistinct
      obtain ⟨hname, hrest⟩ := List.forall_mem_cons.mp hnamed
      have htaken : job.name ∉ g.names := fun htaken =>
        (List.nodup_append.mp hdistinct).2.2 _ htaken _ List.mem_cons_self rfl
      obtain ⟨next, hadd⟩ := exists_add_eq_ok hname htaken
      obtain ⟨-, -, hjobs⟩ := add_eq_ok_iff.mp hadd
      have hnames : next.names = g.names ++ [job.name] := by
        rw [names, hjobs, List.map_append]
        rfl
      rcases bind_eq_error_iff.mp h with h | ⟨value, hvalue, h⟩
      · rcases bind_eq_error_iff.mp h with h | ⟨_, heq, h⟩
        · cases h
        · cases heq
          rw [hadd] at h
          cases h
      · obtain ⟨_, heq, hmapped⟩ := bind_eq_ok_iff.mp hvalue
        cases heq
        rw [mapError_eq_ok_iff, hadd] at hmapped
        obtain rfl := Except.ok.inj hmapped
        refine List.mem_cons_of_mem _ (ih hrest ?_ h)
        rwa [hnames, List.append_assoc]

/-- Whatever the names of the jobs are, an error is that of a candidate or a fault in adding one. -/
theorem mem_or_fault_of_foldlM_add_eq_error {error : ε}
    (h : candidates.foldlM (fun (start : JobGraph) candidate => do
      let job ← candidate
      (start.add job).mapError ofFault) g = .error error) :
    .error error ∈ candidates
      ∨ ∃ fault, (∃ start job, add start job = .error fault) ∧ error = ofFault fault := by
  induction candidates generalizing g with
  | nil => cases h
  | cons candidate rest ih =>
    rw [List.foldlM_cons] at h
    rcases bind_eq_error_iff.mp h with hfirst | ⟨next, -, hrest⟩
    · cases candidate with
      | error other =>
        rw [← Except.error.inj hfirst]
        exact .inl List.mem_cons_self
      | ok job =>
        obtain ⟨fault, hadd, hfault⟩ := mapError_eq_error_iff.mp hfirst
        exact .inr ⟨fault, ⟨g, job, hadd⟩, hfault.symm⟩
    · rcases ih hrest with hmem | hfault
      · exact .inl (List.mem_cons_of_mem _ hmem)
      · exact .inr hfault

theorem mem_or_fault_of_assemble_eq_error {error : ε}
    (h : assemble ofFault candidates = .error error) :
    .error error ∈ candidates
      ∨ ∃ fault, (∃ start job, add start job = .error fault) ∧ error = ofFault fault :=
  mem_or_fault_of_foldlM_add_eq_error (g := ∅) h

theorem mem_of_assemble_eq_error {error : ε}
    (hnamed : ∀ job ∈ candidates.filterMap Except.toOption, job.name ≠ "")
    (hdistinct : ((candidates.filterMap Except.toOption).map Job.name).Nodup)
    (h : assemble ofFault candidates = .error error) : .error error ∈ candidates :=
  mem_of_foldlM_add_eq_error (g := ∅) hnamed hdistinct h

end Assemble

/-- Rewiring changes the needs of a job and nothing else. -/
theorem get?_rewire {needs : Job → List String} (h : job ∈ g.jobs) :
    (g.rewire needs).get? job.name = some { job with needs := needs job } :=
  get?_eq_some_iff.mpr ⟨List.mem_map_of_mem h, rfl⟩

end JobGraph

end AgentGate
