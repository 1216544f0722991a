import AgentGate.Proofs.Job.Search
import Mathlib

/-!
# What a rejected graph is rejected for

A fault says where the graph is wrong: the first need that is missing, or, when none is, a cycle.
The search takes jobs and needs in the order of their names, so that the cycle which it meets first
is a matter of the edges alone.

- `JobGraph.FirstUnknown`: the first missing need, in the order of jobs and then of needs.
- `search_eq_of_sorted`: two lists of starts that differ in what is done give the same search.
- `SameEdges.search_eq`: the search depends on the edges.
- `validate_fault_truthful`: what each fault says of the graph.
-/

namespace AgentGate.JobGraph

variable {g other : JobGraph} {path done starts : List String} {fault : GraphFault}

/-! ## The first missing need -/

/-- A job lists a need that is no job of the graph; no need that it lists before is missing, and
none of the jobs before it. -/
def FirstUnknown (g : JobGraph) (name need : String) : Prop :=
  ∃ before job after listed unread,
    g.jobs = before ++ job :: after ∧ job.name = name ∧ job.needs = listed ++ need :: unread ∧
      need ∉ g.names ∧ (∀ earlier ∈ before, ∀ need ∈ earlier.needs, need ∈ g.names) ∧
      ∀ earlier ∈ listed, earlier ∈ g.names

theorem firstUnknown_of_unknownNeed? {name need : String}
    (h : g.unknownNeed? = some (name, need)) : g.FirstUnknown name need := by
  obtain ⟨before, job, after, hjobs, hjob, hbefore⟩ := List.findSome?_eq_some_iff.mp h
  obtain ⟨found, hfound, heq⟩ := Option.map_eq_some_iff.mp hjob
  obtain ⟨rfl, rfl⟩ := Prod.mk.inj heq
  obtain ⟨hunknown, listed, unread, hneeds, hlisted⟩ := List.find?_eq_some_iff_append.mp hfound
  refine ⟨before, job, after, listed, unread, hjobs, rfl, hneeds, ?_, ?_, ?_⟩
  · rw [← contains_iff]
    simpa using hunknown
  · intro earlier hearlier need hneed
    have hnone := List.find?_eq_none.mp (Option.map_eq_none_iff.mp (hbefore earlier hearlier))
    rw [← contains_iff]
    simpa using hnone need hneed
  · intro earlier hearlier
    rw [← contains_iff]
    simpa using hlisted earlier hearlier

/-! ## The search depends on the edges -/

/-- The search from several starts goes from one to the next. -/
theorem search_cons (name : String) (rest : List String) :
    g.search path done (name :: rest)
      = (g.search path done [name]).bind fun done => g.search path done rest := by
  rw [search, search]
  split
  · rw [search]
    rfl
  · split
    · rfl
    · split
      · rw [search]
        rfl
      · split
        · rfl
        · rw [search]
          rfl

/-- A start that is done is passed over. -/
theorem search_cons_of_mem {name : String} {rest : List String} (h : name ∈ done) :
    g.search path done (name :: rest) = g.search path done rest := by
  rw [search, if_pos (List.contains_iff_mem.mpr h)]

/-- Starts that are all done are passed over. -/
theorem search_of_subset (h : starts ⊆ done) : g.search path done starts = .ok done := by
  induction starts with
  | nil => rw [search]
  | cons name rest ih =>
    obtain ⟨hname, hrest⟩ := List.cons_subset.mp h
    rw [search_cons_of_mem hname, ih hrest]

/-- **Repeated starts do not count**: two lists in order that hold the same jobs, apart from those
that are done, give the same search. A start that is done is passed over on its side; otherwise both
lists start with the same job, the least one that is not done. -/
theorem search_eq_of_sorted {first second : List String} (hfirst : first.Pairwise (· ≤ ·))
    (hsecond : second.Pairwise (· ≤ ·)) (h : ∀ name ∉ done, name ∈ first ↔ name ∈ second) :
    g.search path done first = g.search path done second := by
  induction first generalizing done second with
  | nil =>
    have hdone : second ⊆ done := fun name hname => by
      by_contra hnew
      exact List.not_mem_nil ((h name hnew).mpr hname)
    rw [search_of_subset hdone, search_of_subset (List.nil_subset _)]
  | cons name rest ih =>
    obtain ⟨hname, hrest⟩ := List.pairwise_cons.mp hfirst
    by_cases hdone : name ∈ done
    · rw [search_cons_of_mem hdone]
      refine ih hrest hsecond fun job hnew => ?_
      rw [← h job hnew, List.mem_cons, or_iff_right fun heq : job = name => hnew (heq ▸ hdone)]
    · induction second with
      | nil => exact absurd ((h name hdone).mp List.mem_cons_self) List.not_mem_nil
      | cons name' rest' ih' =>
        obtain ⟨hname', hrest'⟩ := List.pairwise_cons.mp hsecond
        by_cases hdone' : name' ∈ done
        · rw [search_cons_of_mem hdone']
          refine ih' hrest' fun job hnew => ?_
          rw [h job hnew, List.mem_cons, or_iff_right fun heq : job = name' => hnew (heq ▸ hdone')]
        · obtain rfl : name = name' := by
            rcases List.mem_cons.mp ((h name hdone).mp List.mem_cons_self) with heq | hmem
            · exact heq
            · rcases List.mem_cons.mp ((h name' hdone').mpr List.mem_cons_self) with heq | hmem'
              · exact heq.symm
              · exact le_antisymm (hname name' hmem') (hname' name hmem)
          rw [search_cons, search_cons name rest']
          cases hsearch : g.search path done [name] with
          | error cycle => rfl
          | ok done' =>
            obtain ⟨hsub, hstart⟩ := subset_of_search_eq_ok hsearch
            refine ih hrest hrest' fun job hnew => ?_
            -- The first job is done by now, so that the lists agree behind it.
            have hother : job ≠ name := fun heq => hnew (heq ▸ hstart List.mem_cons_self)
            have hboth := h job fun hmem => hnew (hsub hmem)
            rwa [List.mem_cons, List.mem_cons, or_iff_right hother, or_iff_right hother] at hboth

theorem pairwise_mergeSort (names : List String) : names.mergeSort.Pairwise (· ≤ ·) := by
  have hsorted : names.mergeSort.Pairwise fun first second => decide (first ≤ second) = true := by
    refine List.pairwise_mergeSort (fun _ _ _ hfirst hsecond => ?_) (fun first second => ?_) names
    · simp only [decide_eq_true_eq] at hfirst hsecond ⊢
      exact le_trans hfirst hsecond
    · simpa using le_total first second
  simpa using hsorted

/-- The order in which starts are listed does not count, nor how often. -/
theorem search_mergeSort_eq {first second : List String}
    (h : ∀ name, name ∈ first ↔ name ∈ second) :
    g.search path done first.mergeSort = g.search path done second.mergeSort := by
  refine search_eq_of_sorted (pairwise_mergeSort first) (pairwise_mergeSort second) fun name _ => ?_
  rw [List.mem_mergeSort, List.mem_mergeSort, h name]

/-- The jobs of a name need the same in both graphs. -/
theorem SameEdges.exists_get? {name : String} {job : Job} (h : g.SameEdges other)
    (hjob : g.get? name = some job) :
    ∃ job', other.get? name = some job' ∧ ∀ need, need ∈ job'.needs ↔ need ∈ job.needs := by
  have hname := (h.names name).mp (name_mem_of_get? hjob)
  cases hfound : other.get? name with
  | none => exact absurd hname (get?_eq_none_iff.mp hfound)
  | some job' =>
    refine ⟨job', rfl, fun need => ?_⟩
    rw [← needs_iff_of_get? hfound, ← needs_iff_of_get? hjob, h.needs]

/-- The search depends on the edges. -/
theorem SameEdges.search_eq (h : g.SameEdges other) :
    other.search path done starts = g.search path done starts := by
  fun_induction g.search path done starts with
  | case1 path done => rw [search]
  | case2 path done name rest hdone ih => rw [search, if_pos hdone, ih]
  | case3 path done name rest hdone honPath => rw [search, if_neg hdone, dif_pos honPath]
  | case4 path done name rest hdone hoffPath hmissing ih =>
    have hmissing' : other.get? name = none := by
      rw [get?_eq_none_iff] at hmissing ⊢
      exact fun hname => hmissing ((h.names name).mpr hname)
    rw [search, if_neg hdone, dif_neg hoffPath]
    split
    case h_1 => exact ih
    case h_2 job hjob => cases hmissing'.symm.trans hjob
  | case5 path done name rest hdone hoffPath job hfound found hinner ih =>
    obtain ⟨job', hjob', hneeds⟩ := h.exists_get? hfound
    rw [← search_mergeSort_eq hneeds, hinner] at ih
    rw [search, if_neg hdone, dif_neg hoffPath]
    split
    case h_1 hmissing => cases hjob'.symm.trans hmissing
    case h_2 job'' hjob'' =>
      obtain rfl := Option.some.inj (hjob'.symm.trans hjob'')
      rw [ih]
  | case6 path done name rest hdone hoffPath job hfound inner hinner ihneeds ih =>
    obtain ⟨job', hjob', hneeds⟩ := h.exists_get? hfound
    rw [← search_mergeSort_eq hneeds, hinner] at ihneeds
    rw [search, if_neg hdone, dif_neg hoffPath]
    split
    case h_1 hmissing => cases hjob'.symm.trans hmissing
    case h_2 job'' hjob'' =>
      obtain rfl := Option.some.inj (hjob'.symm.trans hjob'')
      rw [ihneeds]
      exact ih

/-- The cycle that is met first is a matter of the edges. -/
theorem SameEdges.findCycle_eq (h : g.SameEdges other) : other.findCycle = g.findCycle := by
  rw [findCycle, findCycle, h.search_eq, search_mergeSort_eq fun name => (h.names name).symm]

/-! ## What a fault says -/

theorem SameEdges.symm (h : g.SameEdges other) : other.SameEdges g where
  names name := (h.names name).symm
  needs name need := (h.needs name need).symm

/-- A rejected graph has a first missing need, or it has none and the search has met a cycle. -/
theorem validate_eq_error (h : g.validate = .error fault) :
    (∃ name need, fault = .unknownNeed name need ∧ g.FirstUnknown name need) ∨
      g.Closed ∧ ∃ cycle, fault = .cycle cycle ∧ g.findCycle = some cycle := by
  unfold validate at h
  split at h
  case h_1 name need hunknown =>
    exact .inl ⟨name, need, (Except.error.inj h).symm, firstUnknown_of_unknownNeed? hunknown⟩
  case h_2 hknown =>
    refine .inr ⟨unknownNeed?_eq_none_iff.mp hknown, ?_⟩
    split at h
    case h_1 cycle hcycle => exact ⟨cycle, (Except.error.inj h).symm, hcycle⟩
    case h_2 => cases h

/-- **A fault is truthful.** What a graph is rejected for is the first need, in the order of its
jobs and then of their needs, that is no job of the graph; or all needs are jobs of the graph, and
the fault lists a cycle: distinct jobs, each of which needs the next one, while the last needs the
first, as the text says. Every graph with the same names and edges is then rejected for the same
cycle, so that it does not matter in which order jobs were added and needs were listed. -/
theorem validate_fault_truthful (h : g.validate = .error fault) :
    (∃ name need, fault.jobs = [name, need] ∧ g.FirstUnknown name need ∧
        fault.message = "job '" ++ name ++ "' depends on non-existent job '" ++ need ++ "'") ∨
      g.Closed ∧ ∃ first last, fault.jobs.head? = some first ∧ fault.jobs.getLast? = some last ∧
        fault.jobs.Nodup ∧ fault.jobs.IsChain g.Needs ∧ g.Needs last first ∧
        fault.message = "cycle detected in job dependencies: job '" ++ last
          ++ "' has circular dependency through '" ++ first ++ "' ("
          ++ " -> ".intercalate (fault.jobs ++ [first]) ++ ")" ∧
        ∀ other : JobGraph, g.SameEdges other → other.validate = .error fault := by
  rcases validate_eq_error h with ⟨name, need, rfl, hunknown⟩ | ⟨hclosed, cycle, rfl, hcycle⟩
  · exact .inl ⟨name, need, rfl, hunknown, rfl⟩
  · obtain ⟨hdistinct, last, hlast, hround⟩ := isCycle_of_findCycle hcycle
    cases cycle with
    | nil => cases hlast
    | cons first rest =>
      obtain ⟨hclose, hchain⟩ := List.isChain_cons_cons.mp hround
      refine .inr ⟨hclosed, first, last, rfl, hlast, hdistinct, hchain, hclose, ?_,
        fun other hsame => ?_⟩
      · unfold GraphFault.message GraphFault.jobs
        dsimp only
        rw [hlast, List.head?_cons, Option.getD_some, Option.getD_some]
      · rw [validate, unknownNeed?_eq_none_iff.mpr (hsame.symm.closed hclosed),
          hsame.findCycle_eq, hcycle]

/-- Three jobs in a circle. The search starts at the job that was added last. -/
def circle : JobGraph where
  jobs :=
    [{ name := "test", needs := ["deploy"], runsOn := "ubuntu-latest" },
      { name := "deploy", needs := ["build", "build"], runsOn := "ubuntu-latest" },
      { name := "build", needs := ["test"], runsOn := "ubuntu-latest" }]
  named := by decide
  distinct := by decide

theorem validate_circle : circle.validate = .error (.cycle ["build", "test", "deploy"]) := by
  have hnames : ∀ name, name ∈ circle.names ↔ name ∈ ["build", "deploy", "test"] := fun name =>
    List.Perm.mem_iff (by decide)
  have hsearch : circle.search [] [] ["build", "deploy", "test"]
      = .error ["build", "test", "deploy"] := by cbv
  have hcycle : circle.findCycle = some ["build", "test", "deploy"] := by
    rw [findCycle, search_mergeSort_eq hnames, List.mergeSort_of_pairwise (by decide +kernel),
      hsearch]
  rw [validate, show circle.unknownNeed? = none by decide +kernel, hcycle]

theorem circle_truthful :
    circle.validate = .error (.cycle ["build", "test", "deploy"]) ∧ circle.Closed ∧
      circle.Needs "deploy" "build" := by
  rcases validate_fault_truthful validate_circle with
    ⟨_, _, hjobs, -⟩ | ⟨hclosed, first, last, hfirst, hlast, -, -, hclose, -⟩
  · cases hjobs
  · cases hfirst
    cases hlast
    exact ⟨validate_circle, hclosed, hclose⟩

end AgentGate.JobGraph
