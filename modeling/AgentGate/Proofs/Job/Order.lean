import AgentGate.Proofs.Job.Countdown
import AgentGate.Proofs.Job.Search
import Mathlib.Data.List.Perm.Subperm
import Mathlib.Order.WellFoundedSet

/-!
# The topological order

The order is specified by what can run: a job can when it has not run and all its needs have. At
each position stands the least such job, which leaves no choice, so that the order is a function of
the jobs alone and not of how they were inserted.

- `JobGraph.CanRun`, `JobGraph.TakesLeast`: the specification.
- `eq_of_takesLeast`: it determines an order from its length.
- `SameEdges.topologicalOrder`: the order depends on the names and edges.
- `exists_running_drain`: the turns suffice, for every graph; the drain ends since nothing is ready.
- `mem_of_running_of_idle`: in a valid graph nothing is ready only when everything has run. Kahn's
  loop does not check this, and it rests on the verdict of the depth-first search.
-/

namespace AgentGate.JobGraph

open Relation

variable {g : JobGraph} {ran pending : List String} {c : Countdown} {name : String}

/-! ## The specification -/

/-- A job has not run, and all its needs have. -/
def CanRun (g : JobGraph) (ran : List String) (name : String) : Prop :=
  name ∉ ran ∧ ∃ job ∈ g.jobs, job.name = name ∧ ∀ need ∈ job.needs, need ∈ ran

/-- At each position of an order stands the least of the jobs that can run by then. -/
def TakesLeast (g : JobGraph) (order : List String) : Prop :=
  ∀ before name after, order = before ++ name :: after →
    g.CanRun before name ∧ ∀ other, g.CanRun before other → name ≤ other

/-- The specification leaves no choice. -/
theorem eq_of_takesLeast (before : List String) {first second : List String}
    (hfirst : g.TakesLeast (before ++ first)) (hsecond : g.TakesLeast (before ++ second))
    (hlength : first.length = second.length) : first = second := by
  induction first generalizing before second with
  | nil => exact (List.length_eq_zero_iff.mp hlength.symm).symm
  | cons name rest ih =>
    cases second with
    | nil => cases hlength
    | cons name' rest' =>
      obtain ⟨hcan, hleast⟩ := hfirst before name rest rfl
      obtain ⟨hcan', hleast'⟩ := hsecond before name' rest' rfl
      obtain rfl : name = name' := le_antisymm (hleast name' hcan') (hleast' name hcan)
      rw [List.append_cons] at hfirst hsecond
      rw [ih (before ++ [name]) hfirst hsecond (Nat.succ.inj hlength)]

/-- What can run depends on the names and edges. -/
theorem SameEdges.canRun_iff {other : JobGraph} (h : other.SameEdges g) :
    other.CanRun ran name ↔ g.CanRun ran name := by
  have hnames : ∀ {g : JobGraph}, (∃ job ∈ g.jobs, job.name = name ∧ ∀ need ∈ job.needs, need ∈ ran)
      ↔ name ∈ g.names ∧ ∀ need, g.Needs name need → need ∈ ran := by
    intro g
    constructor
    · rintro ⟨job, hjob, rfl, hneeds⟩
      refine ⟨mem_names_iff.mpr ⟨job, hjob, rfl⟩, ?_⟩
      rintro need ⟨job', hjob', hname, hneed⟩
      exact hneeds need (eq_of_name_eq hjob' hjob hname ▸ hneed)
    · rintro ⟨hname, hneeds⟩
      obtain ⟨job, hjob, rfl⟩ := mem_names_iff.mp hname
      exact ⟨job, hjob, rfl, fun need hneed => hneeds need ⟨job, hjob, rfl, hneed⟩⟩
  rw [CanRun, CanRun, hnames, hnames, h.names]
  simp only [h.needs]

theorem TakesLeast.of_sameEdges {other : JobGraph} {order : List String}
    (hsame : other.SameEdges g) (h : g.TakesLeast order) : other.TakesLeast order := by
  intro before name after horder
  obtain ⟨hcan, hleast⟩ := h before name after horder
  exact ⟨hsame.canRun_iff.mpr hcan, fun next hnext => hleast next (hsame.canRun_iff.mp hnext)⟩

/-- What can run depends on the jobs and not on their order. -/
theorem TakesLeast.of_perm {other : JobGraph} {order : List String} (hperm : other.jobs.Perm g.jobs)
    (h : g.TakesLeast order) : other.TakesLeast order :=
  h.of_sameEdges (.of_perm hperm)

/-! ## The countdown meets it -/

/-- Between two turns the ready jobs are those that can run. -/
theorem Consistent.ready_iff_canRun (h : g.Consistent ran [] c) :
    c.ready.get? name = some () ↔ g.CanRun ran name := by
  have hzero : ∀ job ∈ g.jobs,
      c.waiting.get? job.name = some 0 ↔ ∀ need ∈ job.needs, need ∈ ran := by
    intro job hjob
    rw [h.waiting job hjob, List.count_nil, Nat.add_zero, Option.some_inj, Int.natCast_eq_zero]
    exact missing_eq_zero_iff
  rw [h.ready]
  constructor
  · rintro ⟨hunran, hwaiting⟩
    obtain ⟨job, hjob, rfl⟩ := mem_names_iff.mp (h.known name 0 hwaiting)
    exact ⟨hunran, job, hjob, rfl, (hzero job hjob).mp hwaiting⟩
  · rintro ⟨hunran, job, hjob, rfl, hneeds⟩
    exact ⟨hunran, (hzero job hjob).mpr hneeds⟩

/-- Each job that runs is the least of those that can, by induction on the run. -/
theorem takesLeast_of_running (h : g.Running ran pending c) : g.TakesLeast ran := by
  induction h with
  | start =>
    intro before name after horder
    cases before <;> cases horder
  | release _ ih => exact ih
  | @run ran c name ready hrunning hpop ih =>
    have hconsistent := consistent_of_running hrunning
    intro before last after horder
    -- The position is the new one at the end, or one that the run had before.
    rcases List.eq_nil_or_concat after with rfl | ⟨after, final, rfl⟩
    · obtain ⟨rfl, hlast⟩ := List.append_inj' horder rfl
      obtain rfl : name = last := List.singleton_inj.mp hlast
      refine ⟨hconsistent.ready_iff_canRun.mp (Table.get?_first_of_popFirst? hpop), ?_⟩
      intro other hother
      exact Table.le_of_popFirst? hpop (hconsistent.ready_iff_canRun.mpr hother)
    · rw [List.concat_eq_append, ← List.cons_append, ← List.append_assoc] at horder
      exact ih before last after (List.append_inj' horder rfl).1

/-- All releases of a turn follow each other. -/
theorem running_foldl_release (h : g.Running ran pending c) :
    g.Running ran [] (pending.foldl Countdown.release c) := by
  induction pending generalizing c with
  | nil => exact h
  | cons name rest ih => exact ih h.release

/-- Only jobs of the graph run, so there are at most as many as the graph has. -/
theorem subset_names_of_consistent (h : g.Consistent ran pending c) : ran ⊆ g.names :=
  fun name hname => h.known name 0 (h.settled name hname)

/-- When as many jobs have run as the graph has, nothing is ready. -/
theorem Consistent.idle_of_length (h : g.Consistent ran [] c)
    (hlength : g.jobs.length ≤ ran.length) : c.ready.popFirst? = none := by
  cases hpop : c.ready.popFirst? with
  | none => rfl
  | some taken =>
    obtain ⟨⟨name, value⟩, rest⟩ := taken
    obtain ⟨hunran, hwaiting⟩ := (h.ready name).mp (Table.get?_first_of_popFirst? hpop)
    -- As many distinct jobs as there are names are all of them.
    have hall : ran.Perm g.names := by
      refine (h.distinct.subperm (subset_names_of_consistent h)).perm_of_length_le ?_
      rw [names, List.length_map]
      exact hlength
    exact absurd (hall.mem_iff.mpr (h.known name 0 hwaiting)) hunran

/-- **The turns suffice**: draining goes on along the run, and when it has a turn for each job it
ends because nothing is ready. -/
theorem exists_running_drain (turns : Nat) (h : g.Running ran [] c)
    (hturns : g.jobs.length ≤ ran.length + turns) :
    ∃ idle, g.Running (ran ++ g.drain turns c) [] idle ∧ idle.ready.popFirst? = none := by
  induction turns generalizing ran c with
  | zero =>
    rw [drain, List.append_nil]
    exact ⟨c, h, (consistent_of_running h).idle_of_length hturns⟩
  | succ turns ih =>
    rw [drain]
    cases hpop : c.ready.popFirst? with
    | none =>
      rw [List.append_nil]
      exact ⟨c, h, hpop⟩
    | some taken =>
      obtain ⟨⟨name, value⟩, ready⟩ := taken
      have hnext := running_foldl_release (h.run hpop)
      obtain ⟨idle, hidle, hnone⟩ := ih hnext (by
        rw [List.length_append, List.length_singleton]
        omega)
      rw [← List.append_cons] at hidle
      exact ⟨idle, hidle, hnone⟩

/-! ## Everything runs -/

/-- In a valid graph nothing is ready only when everything has run. The induction follows the needs
of a job, which is well-founded since the graph is finite and no job reaches itself. -/
theorem mem_of_running_of_idle (hclosed : g.Closed) (hacyclic : g.Acyclic)
    (h : g.Running ran [] c) (hidle : c.ready.popFirst? = none) : ∀ name ∈ g.names, name ∈ ran := by
  have hconsistent := consistent_of_running h
  have horder : IsStrictOrder String fun need name => TransGen g.Needs name need :=
    { irrefl := hacyclic, trans := fun _ _ _ hfirst hsecond => hsecond.trans hfirst }
  have hfinite : {name | name ∈ g.names}.Finite := List.finite_toSet g.names
  intro name hname
  refine hfinite.wellFoundedOn (r := fun need name => TransGen g.Needs name need)
    |>.induction hname fun name hname ih => ?_
  obtain ⟨job, hjob, rfl⟩ := mem_names_iff.mp hname
  -- All needs of the job have run by induction, so it could run, and would be ready.
  by_contra hunran
  have hcan : g.CanRun ran job.name := by
    refine ⟨hunran, job, hjob, rfl, fun need hneed => ?_⟩
    exact ih need (hclosed job hjob need hneed) (.single ⟨job, hjob, rfl, hneed⟩)
  have hready := hconsistent.ready_iff_canRun.mpr hcan
  rw [Table.get?_eq_none_of_popFirst? hidle] at hready
  cases hready

/-- The order of a valid graph: the run is idle after it, and it lists the jobs of the graph. -/
theorem exists_topologicalOrder (hvalid : g.validate = .ok ()) :
    ∃ order idle, g.topologicalOrder = .ok order ∧ g.Running order [] idle ∧
      idle.ready.popFirst? = none ∧ order.Perm g.names := by
  obtain ⟨hclosed, hacyclic⟩ := validate_eq_ok_iff.mp hvalid
  obtain ⟨idle, hrunning, hidle⟩ :=
    exists_running_drain g.jobs.length .start (by rw [List.length_nil, Nat.zero_add])
  rw [List.nil_append] at hrunning
  have hconsistent := consistent_of_running hrunning
  refine ⟨_, idle, ?_, hrunning, hidle, ?_⟩
  · rw [topologicalOrder, hvalid]
    rfl
  · refine (List.perm_ext_iff_of_nodup hconsistent.distinct g.distinct).mpr fun name => ?_
    exact ⟨fun h => subset_names_of_consistent hconsistent h,
      mem_of_running_of_idle hclosed hacyclic hrunning hidle name⟩

/-- A rejected graph has no order, and the fault is the one that it is rejected for. -/
theorem topologicalOrder_eq_error {fault : GraphFault} (h : g.validate = .error fault) :
    g.topologicalOrder = .error fault := by
  rw [topologicalOrder, h]
  rfl

/-- Validity depends on the names and edges. -/
theorem SameEdges.validate {other : JobGraph} (hsame : other.SameEdges g)
    (h : g.validate = .ok ()) : other.validate = .ok () := by
  obtain ⟨hclosed, hacyclic⟩ := validate_eq_ok_iff.mp h
  exact validate_eq_ok_iff.mpr ⟨hsame.closed hclosed, hsame.acyclic hacyclic⟩

/-- Validity depends on the jobs and not on their order. -/
theorem validate_of_perm {other : JobGraph} (hperm : other.jobs.Perm g.jobs)
    (h : g.validate = .ok ()) : other.validate = .ok () :=
  SameEdges.validate (.of_perm hperm) h

/-- Valid graphs with the same names and edges have the same order. -/
theorem SameEdges.topologicalOrder {other : JobGraph} (hsame : other.SameEdges g)
    (hvalid : g.validate = .ok ()) :
    ∃ order, g.topologicalOrder = .ok order ∧ other.topologicalOrder = .ok order := by
  obtain ⟨order, _, horder, hrunning, -, hperm⟩ := exists_topologicalOrder hvalid
  obtain ⟨order', _, horder', hrunning', -, hperm'⟩ :=
    exists_topologicalOrder (hsame.validate hvalid)
  have hnames : other.names.Perm g.names :=
    (List.perm_ext_iff_of_nodup other.distinct g.distinct).mpr hsame.names
  have hlength : order'.length = order.length := (hperm'.trans (hnames.trans hperm.symm)).length_eq
  refine ⟨order, horder, ?_⟩
  rw [horder', eq_of_takesLeast [] (takesLeast_of_running hrunning')
    ((takesLeast_of_running hrunning).of_sameEdges hsame) hlength]

/-- **The topological order is exact.** A valid graph has an order, which lists every job once; at
each position stands a job all of whose needs stand before it, and the least of the jobs of which
this holds and that do not stand before it themselves. The run that gives it ends because nothing is
ready. The same jobs in another order of insertion have the same topological order. A rejected
graph has none, with the fault of its validation. In every state of the run of any graph, no number
of the countdown is below zero. -/
theorem topologicalOrder_exact (g : JobGraph) :
    (g.validate = .ok () → ∃ order, g.topologicalOrder = .ok order ∧
      order.Nodup ∧ (∀ name, name ∈ order ↔ name ∈ g.names) ∧
      (∀ before name after, order = before ++ name :: after →
        g.CanRun before name ∧ ∀ other, g.CanRun before other → name ≤ other) ∧
      (∃ idle, g.Running order [] idle ∧ idle.ready.popFirst? = none) ∧
      (∀ other : JobGraph, other.jobs.Perm g.jobs → other.topologicalOrder = .ok order)) ∧
    (∀ fault, g.validate = .error fault → g.topologicalOrder = .error fault) ∧
    ∀ ran pending c, g.Running ran pending c →
      ∀ name count, c.waiting.get? name = some count → 0 ≤ count := by
  refine ⟨fun hvalid => ?_, fun fault => topologicalOrder_eq_error, ?_⟩
  · obtain ⟨order, idle, horder, hrunning, hidle, hperm⟩ := exists_topologicalOrder hvalid
    have hleast := takesLeast_of_running hrunning
    refine ⟨order, horder, hperm.nodup_iff.mpr g.distinct, fun name => hperm.mem_iff, hleast,
      ⟨idle, hrunning, hidle⟩, fun other hother => ?_⟩
    obtain ⟨order', _, horder', hrunning', -, hperm'⟩ :=
      exists_topologicalOrder (validate_of_perm hother hvalid)
    have hlength : order'.length = order.length :=
      (hperm'.trans ((hother.map Job.name).trans hperm.symm)).length_eq
    rw [horder', eq_of_takesLeast [] (takesLeast_of_running hrunning')
      (hleast.of_perm hother) hlength]
  · intro ran pending c hrunning name count hcount
    have hconsistent := consistent_of_running hrunning
    obtain ⟨job, hjob, rfl⟩ := mem_names_iff.mp (hconsistent.known name count hcount)
    rw [hconsistent.waiting job hjob] at hcount
    rw [← Option.some.inj hcount]
    exact Int.natCast_nonneg _

end AgentGate.JobGraph
