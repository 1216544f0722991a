import AgentGate.Job.Graph
import Mathlib.Data.List.Chain
import Mathlib.Data.List.Nodup

/-!
# Edges of a job graph

A need is an edge from the job that has it to the job that it names. An edge may lead out of the
graph, since a need may name anything; a graph is valid when none does and no job reaches itself.

- `JobGraph.Needs`: the edges.
- `JobGraph.Closed`, `JobGraph.Acyclic`: what validity asks for, said without a search.
- `JobGraph.IsCycle`: a list of distinct jobs around which the edges lead.
- `JobGraph.acyclic_of_rank`: a numbering that decreases along edges rules cycles out.
- `JobGraph.SameEdges`: two graphs with the same names and edges, both valid or neither.
-/

namespace AgentGate.JobGraph

open Relation

variable {g : JobGraph} {name need : String} {job : Job}

/-! ## Jobs by name -/

theorem mem_names_iff : name ∈ g.names ↔ ∃ job ∈ g.jobs, job.name = name :=
  List.mem_map

theorem contains_iff : g.contains name = true ↔ name ∈ g.names :=
  List.contains_iff_mem

/-- A graph has one job of each name. -/
theorem eq_of_name_eq {other : Job} (hjob : job ∈ g.jobs) (hother : other ∈ g.jobs)
    (h : job.name = other.name) : job = other :=
  List.inj_on_of_nodup_map g.distinct hjob hother h

theorem get?_eq_some_iff : g.get? name = some job ↔ job ∈ g.jobs ∧ job.name = name := by
  constructor
  · intro h
    exact ⟨List.mem_of_find?_eq_some h, by simpa using List.find?_some h⟩
  · rintro ⟨hmem, rfl⟩
    cases hfound : g.get? job.name with
    | none =>
      have hnone := List.find?_eq_none.mp hfound job hmem
      simp at hnone
    | some other =>
      have hname : other.name = job.name := by simpa using List.find?_some hfound
      rw [eq_of_name_eq (List.mem_of_find?_eq_some hfound) hmem hname]

theorem get?_eq_none_iff : g.get? name = none ↔ name ∉ g.names := by
  rw [mem_names_iff]
  constructor
  · rintro h ⟨job, hjob⟩
    rw [get?_eq_some_iff.mpr hjob] at h
    cases h
  · intro h
    cases hfound : g.get? name with
    | none => rfl
    | some job => exact absurd ⟨job, get?_eq_some_iff.mp hfound⟩ h

/-! ## Edges -/

/-- A job of the graph lists another one among its needs, which may be missing. -/
def Needs (g : JobGraph) (name need : String) : Prop :=
  ∃ job ∈ g.jobs, job.name = name ∧ need ∈ job.needs

/-- Every need is a job of the graph. -/
def Closed (g : JobGraph) : Prop :=
  ∀ job ∈ g.jobs, ∀ need ∈ job.needs, need ∈ g.names

/-- No job reaches itself along one or more edges. -/
def Acyclic (g : JobGraph) : Prop :=
  ∀ name, ¬ TransGen g.Needs name name

theorem needs_iff_of_get? (h : g.get? name = some job) : g.Needs name need ↔ need ∈ job.needs := by
  obtain ⟨hmem, hname⟩ := get?_eq_some_iff.mp h
  constructor
  · rintro ⟨other, hother, hothername, hneed⟩
    rwa [eq_of_name_eq hmem hother (hname.trans hothername.symm)]
  · exact fun hneed => ⟨job, hmem, hname, hneed⟩

/-- Only jobs of the graph have needs. -/
theorem not_needs_of_get?_eq_none (h : g.get? name = none) : ¬ g.Needs name need := by
  rintro ⟨job, hmem, hname, -⟩
  exact get?_eq_none_iff.mp h (mem_names_iff.mpr ⟨job, hmem, hname⟩)

/-- What reaches anything is a job of the graph. -/
theorem mem_names_of_transGen {last : String} (h : TransGen g.Needs name last) :
    name ∈ g.names := by
  obtain ⟨_, ⟨job, hmem, hname, -⟩, -⟩ := TransGen.head'_iff.mp h
  exact mem_names_iff.mpr ⟨job, hmem, hname⟩

/-- A numbering of the jobs that decreases along edges rules cycles out. -/
theorem acyclic_of_rank (rank : String → Nat)
    (hrank : ∀ job ∈ g.jobs, ∀ need ∈ job.needs, rank need < rank job.name) : g.Acyclic := by
  have hdown : ∀ {first last}, TransGen g.Needs first last → rank last < rank first := by
    intro first last h
    induction h with
    | single hedge =>
      obtain ⟨job, hmem, rfl, hneed⟩ := hedge
      exact hrank job hmem _ hneed
    | tail _ hedge ih =>
      obtain ⟨job, hmem, rfl, hneed⟩ := hedge
      exact Nat.lt_trans (hrank job hmem _ hneed) ih
  exact fun name h => absurd (hdown h) (Nat.lt_irrefl _)

/-! ## Graphs with the same edges -/

/-- Two graphs have the same names and edges, whatever else their jobs are. -/
structure SameEdges (g other : JobGraph) : Prop where
  names : ∀ name, name ∈ g.names ↔ name ∈ other.names
  needs : ∀ name need, g.Needs name need ↔ other.Needs name need

namespace SameEdges

variable {other : JobGraph}

/-- The same jobs in another order have the same edges. -/
theorem of_perm (hperm : g.jobs.Perm other.jobs) : g.SameEdges other where
  names _ := (hperm.map Job.name).mem_iff
  needs _ _ := exists_congr fun _ => and_congr hperm.mem_iff Iff.rfl

theorem closed (h : g.SameEdges other) (hclosed : other.Closed) : g.Closed := by
  intro job hjob need hneed
  obtain ⟨job', hjob', -, hneed'⟩ := (h.needs job.name need).mp ⟨job, hjob, rfl, hneed⟩
  exact (h.names need).mpr (hclosed job' hjob' need hneed')

theorem acyclic (h : g.SameEdges other) (hacyclic : other.Acyclic) : g.Acyclic := by
  have hedges : g.Needs ≤ other.Needs := fun name need => (h.needs name need).mp
  exact fun name hcycle => hacyclic name (TransGen.mono hedges name name hcycle)

end SameEdges

/-! ## Cycles -/

/-- Distinct jobs of which each needs the next one and the last needs the first. -/
def IsCycle (g : JobGraph) (cycle : List String) : Prop :=
  cycle.Nodup ∧ ∃ last, cycle.getLast? = some last ∧ (last :: cycle).IsChain g.Needs

/-- The jobs of a chain are reached from its start. -/
theorem transGen_of_isChain {first last : String} {names : List String}
    (hchain : (first :: names).IsChain g.Needs) (hlast : last ∈ names) :
    TransGen g.Needs first last := by
  induction names generalizing first with
  | nil => cases hlast
  | cons head tail ih =>
    obtain ⟨hedge, htail⟩ := List.isChain_cons_cons.mp hchain
    rcases List.mem_cons.mp hlast with rfl | hlast
    · exact .single hedge
    · exact .head hedge (ih htail hlast)

/-- A graph with a cycle is not acyclic. -/
theorem not_acyclic_of_isCycle {cycle : List String} (h : g.IsCycle cycle) : ¬ g.Acyclic := by
  obtain ⟨-, last, hlast, hchain⟩ := h
  exact fun hacyclic => hacyclic last (transGen_of_isChain hchain (List.mem_of_getLast? hlast))

end AgentGate.JobGraph
