import AgentGate.Job.Order
import AgentGate.Proofs.Job.Edges
import AgentGate.Proofs.Table

/-!
# What a countdown knows while jobs run

The countdown keeps, for each job, a number that is set once from the length of its needs and then
lowered from the lists of dependents. That the two agree, also where a need is listed twice, is an
invariant of every state between two lowerings, and all else follows from it.

- `JobGraph.Running`: the states that the countdown of a graph passes through.
- `JobGraph.Consistent`: a number counts the needs that have not run and the lowerings to come; the
  ready jobs are those at zero that have not run.
- `consistent_of_running`: every state is consistent.
-/

namespace AgentGate.JobGraph

variable {g : JobGraph} {ran pending : List String} {c : Countdown} {name : String}

/-- The states of a countdown while the jobs of a graph run: the jobs that have run, in their order,
the dependents of the last one that are still to be released, and the countdown itself. -/
inductive Running (g : JobGraph) : List String → List String → Countdown → Prop
  | start : Running g [] [] g.countdown
  | run {ran : List String} {c : Countdown} {name : String} {ready : Table Unit} :
      Running g ran [] c → c.ready.popFirst? = some ((name, ()), ready) →
      Running g (ran ++ [name]) (g.dependents name) { c with ready }
  | release {ran pending : List String} {c : Countdown} {name : String} :
      Running g ran (name :: pending) c → Running g ran pending (c.release name)

/-! ## The invariant -/

/-- How many needs of a job have not run, each as often as it is listed. -/
def missing (ran : List String) (job : Job) : Nat :=
  job.needs.countP fun need => need ∉ ran

/-- The accounting of the countdown:
1. jobs run once, and only jobs of the graph run or are released;
2. a number counts the needs that have not run and the releases that are still to come;
3. what has run waits for nothing, and what is ready is what waits for nothing and has not run. -/
structure Consistent (g : JobGraph) (ran pending : List String) (c : Countdown) : Prop where
  distinct : ran.Nodup
  released : ∀ name ∈ pending, name ∈ g.names
  known : ∀ name count, c.waiting.get? name = some count → name ∈ g.names
  waiting : ∀ job ∈ g.jobs,
    c.waiting.get? job.name = some ((missing ran job + pending.count job.name : Nat) : Int)
  settled : ∀ name ∈ ran, c.waiting.get? name = some 0
  ready : ∀ name, c.ready.get? name = some () ↔ name ∉ ran ∧ c.waiting.get? name = some 0

theorem countdown_waiting_iff {count : Int} :
    g.countdown.waiting.get? name = some count ↔
      ∃ job ∈ g.jobs, job.name = name ∧ (job.needs.length : Int) = count := by
  have hdistinct : ((g.jobs.map fun job => (job.name, (job.needs.length : Int))).map
      Prod.fst).Nodup := by
    rw [List.map_map]
    exact g.distinct
  rw [countdown, Table.get?_ofList_eq_some_iff hdistinct, List.mem_map]
  simp only [Prod.mk.injEq]

theorem countdown_ready_iff :
    g.countdown.ready.get? name = some () ↔ ∃ job ∈ g.jobs, job.name = name ∧ job.needs = [] := by
  have hdistinct : (((g.jobs.filter fun job => job.needs.isEmpty).map fun job =>
      (job.name, ())).map Prod.fst).Nodup := by
    rw [List.map_map]
    exact g.distinct.sublist (List.filter_sublist.map _)
  rw [countdown, Table.get?_ofList_eq_some_iff hdistinct, List.mem_map]
  constructor
  · rintro ⟨job, hmem, hentry⟩
    obtain ⟨hjob, hempty⟩ := List.mem_filter.mp hmem
    exact ⟨job, hjob, congrArg Prod.fst hentry, List.isEmpty_iff.mp hempty⟩
  · rintro ⟨job, hjob, rfl, hempty⟩
    exact ⟨job, List.mem_filter.mpr ⟨hjob, List.isEmpty_iff.mpr hempty⟩, rfl⟩

theorem consistent_countdown (g : JobGraph) : g.Consistent [] [] g.countdown where
  distinct := List.nodup_nil
  released := fun _ h => absurd h List.not_mem_nil
  known := fun name count h => by
    obtain ⟨job, hjob, hname, -⟩ := countdown_waiting_iff.mp h
    exact mem_names_iff.mpr ⟨job, hjob, hname⟩
  waiting := fun job hjob => by
    refine countdown_waiting_iff.mpr ⟨job, hjob, rfl, ?_⟩
    simp [missing]
  settled := fun _ h => absurd h List.not_mem_nil
  ready := fun name => by
    rw [countdown_ready_iff, countdown_waiting_iff]
    simp

/-- Each job is released once for each time it lists the need. -/
theorem dependents_eq (g : JobGraph) (need : String) :
    g.dependents need =
      g.jobs.flatMap fun job => List.replicate (job.needs.count need) job.name := by
  unfold dependents
  refine List.flatMap_congr fun job _ => ?_
  rw [List.map_const', ← List.countP_eq_length_filter]
  rfl

/-- Under distinct names, only the entries of a job itself count for it. -/
theorem count_flatMap_replicate {jobs : List Job} (hjobs : (jobs.map Job.name).Nodup)
    (times : Job → Nat) {job : Job} (hjob : job ∈ jobs) :
    (jobs.flatMap fun other => List.replicate (times other) other.name).count job.name
      = times job := by
  induction jobs with
  | nil => cases hjob
  | cons head tail ih =>
    obtain ⟨hhead, htail⟩ := List.nodup_cons.mp hjobs
    rw [List.flatMap_cons, List.count_append]
    rcases List.mem_cons.mp hjob with rfl | hjob
    · have hnone : job.name ∉ tail.flatMap fun other =>
          List.replicate (times other) other.name := by
        intro hmem
        obtain ⟨other, hother, hname⟩ := List.mem_flatMap.mp hmem
        rw [List.eq_of_mem_replicate hname] at hhead
        exact hhead (List.mem_map_of_mem hother)
      rw [List.count_replicate_self, List.count_eq_zero.mpr hnone, Nat.add_zero]
    · have hne : head.name ≠ job.name := fun heq =>
        hhead (heq ▸ List.mem_map_of_mem hjob)
      rw [ih htail hjob, List.count_replicate, if_neg (by simpa using hne), Nat.zero_add]

theorem count_dependents {job : Job} (hjob : job ∈ g.jobs) (need : String) :
    (g.dependents need).count job.name = job.needs.count need := by
  rw [dependents_eq, count_flatMap_replicate g.distinct _ hjob]

theorem mem_names_of_mem_dependents {need : String} (h : name ∈ g.dependents need) :
    name ∈ g.names := by
  rw [dependents_eq] at h
  obtain ⟨job, hjob, hname⟩ := List.mem_flatMap.mp h
  rw [List.eq_of_mem_replicate hname]
  exact List.mem_map_of_mem hjob

/-- When a need runs, the needs that have not run become fewer by the times it is listed. -/
theorem missing_concat (job : Job) (hname : name ∉ ran) :
    missing (ran ++ [name]) job + job.needs.count name = missing ran job := by
  unfold missing
  induction job.needs with
  | nil => rfl
  | cons head tail ih =>
    rw [List.countP_cons, List.countP_cons, List.count_cons]
    by_cases heq : head = name
    · subst heq
      have hafter : decide (head ∉ ran ++ [head]) = false := by simp
      have hbefore : decide (head ∉ ran) = true := by simpa using hname
      simp only [hafter, hbefore, beq_self_eq_true, Bool.false_eq_true, if_true, if_false]
      omega
    · have hsame : decide (head ∉ ran ++ [name]) = decide (head ∉ ran) := by simp [heq]
      have hother : (head == name) = false := by simpa using heq
      simp only [hsame, hother, Bool.false_eq_true, if_false]
      omega

/-- Nothing is missing when all needs have run. -/
theorem missing_eq_zero_iff {job : Job} : missing ran job = 0 ↔ ∀ need ∈ job.needs, need ∈ ran := by
  unfold missing
  simp only [List.countP_eq_zero, decide_eq_true_eq, Classical.not_not]

/-! ## Each step keeps the invariant -/

/-- Running a ready job moves what waits for it from the needs that have not run to the releases
that are to come. -/
theorem Consistent.run {ready : Table Unit} (h : g.Consistent ran [] c)
    (hpop : c.ready.popFirst? = some ((name, ()), ready)) :
    g.Consistent (ran ++ [name]) (g.dependents name) { c with ready } := by
  obtain ⟨hnew, hzero⟩ := (h.ready name).mp (Table.get?_first_of_popFirst? hpop)
  refine {
    distinct := ?distinct
    released := fun other hother => mem_names_of_mem_dependents hother
    known := h.known
    waiting := ?waiting
    settled := ?settled
    ready := ?ready }
  case distinct =>
    rw [List.nodup_append]
    refine ⟨h.distinct, List.nodup_singleton name, ?_⟩
    rintro other hother _ hlast rfl
    exact hnew (List.mem_singleton.mp hlast ▸ hother)
  case waiting =>
    -- What the job lists of the needs that have not run is now to be released instead.
    intro job hjob
    have hcount := h.waiting job hjob
    rw [List.count_nil, Nat.add_zero] at hcount
    rw [count_dependents hjob, missing_concat job hnew]
    exact hcount
  case settled =>
    intro other hother
    rcases List.mem_append.mp hother with hother | hother
    · exact h.settled other hother
    · rw [List.mem_singleton.mp hother]
      exact hzero
  case ready =>
    intro other
    show ready.get? other = some () ↔ _
    rw [Table.get?_of_popFirst? hpop, List.mem_append, List.mem_singleton]
    by_cases heq : other = name
    · simp [heq]
    · rw [if_neg heq, h.ready other]
      simp [heq]

/-- A release lowers a number above zero by one, and the job is ready when that was the last. -/
theorem release_eq {count : Nat} (h : c.waiting.get? name = some ((count + 1 : Nat) : Int)) :
    c.release name =
      { waiting := c.waiting.insert name (count : Int)
        ready := if count = 0 then c.ready.insert name () else c.ready } := by
  have hless : ((count + 1 : Nat) : Int) - 1 = (count : Int) := by omega
  unfold Countdown.release
  rw [h]
  simp only [hless, Int.natCast_eq_zero]

/-- Releasing a dependent lowers its number, which is above zero since this release was counted. -/
theorem Consistent.release (h : g.Consistent ran (name :: pending) c) :
    g.Consistent ran pending (c.release name) := by
  obtain ⟨job, hjob, rfl⟩ := mem_names_iff.mp (h.released name List.mem_cons_self)
  have hcount := h.waiting job hjob
  rw [List.count_cons_self, ← Nat.add_assoc] at hcount
  -- This release was counted, so the number is not zero, as it is for what has run.
  have hunran : job.name ∉ ran := by
    intro hmem
    rw [h.settled _ hmem] at hcount
    have := Option.some.inj hcount
    omega
  rw [release_eq hcount]
  refine {
    distinct := h.distinct
    released := fun other hother => h.released other (List.mem_cons_of_mem _ hother)
    known := ?known
    waiting := ?waiting
    settled := ?settled
    ready := ?ready }
  case known =>
    intro other count hother
    rw [Table.get?_insert] at hother
    by_cases heq : other = job.name
    · exact heq ▸ List.mem_map_of_mem hjob
    · rw [if_neg heq] at hother
      exact h.known other count hother
  case waiting =>
    intro other hother
    rw [Table.get?_insert]
    by_cases heq : other.name = job.name
    · rw [if_pos heq, eq_of_name_eq hother hjob heq]
    · rw [if_neg heq, h.waiting other hother, List.count_cons_of_ne (Ne.symm heq)]
  case settled =>
    intro other hother
    have hne : other ≠ job.name := fun heq => hunran (heq ▸ hother)
    rw [Table.get?_insert, if_neg hne]
    exact h.settled other hother
  case ready =>
    intro other
    rw [Table.get?_insert]
    by_cases heq : other = job.name
    · subst heq
      rw [if_pos rfl, Option.some_inj]
      split
      case isTrue hzero => simp [hunran, hzero]
      case isFalse hpos =>
        -- Before the release the number was one higher, so the job was not ready then either.
        rw [h.ready, hcount, Option.some_inj]
        constructor
        · rintro ⟨-, hlast⟩
          omega
        · rintro ⟨-, hlast⟩
          exact absurd (Int.natCast_eq_zero.mp hlast) hpos
    · rw [if_neg heq]
      split
      · rw [Table.get?_insert, if_neg heq]
        exact h.ready other
      · exact h.ready other

/-- **Every state is consistent**, by induction on the run. -/
theorem consistent_of_running (h : g.Running ran pending c) : g.Consistent ran pending c := by
  induction h with
  | start => exact consistent_countdown g
  | run _ hpop ih => exact ih.run hpop
  | release _ ih => exact ih.release

end AgentGate.JobGraph
