import AgentGate.Proofs.Job.Edges

/-!
# The depth-first search finds exactly the cycles

`JobGraph.search` shares the jobs that are done across all starts and keeps the path on which it
stands. The two halves of its correctness need different invariants, and neither needs the other:

- `Trail`: the path is a real path of distinct jobs and ends where the search goes on. It makes a
  reported cycle a cycle (`isCycle_of_search_eq_error`).
- `Settled`: the jobs that are done keep their needs among themselves and lie on no cycle. The
  search keeps it, whatever the path is, so that nothing is left when it ends without a report
  (`settled_of_search_eq_ok`).

`validate_eq_ok_iff` and `validate_accepts_iff` say what the verdict means for the graph. The search
shares its done jobs across starts, so that a verdict on one start depends on those before it.
-/

namespace AgentGate.JobGraph

open Relation

variable {g : JobGraph} {path done starts : List String}

/-! ## A reported cycle is one -/

/-- The search stands at the end of `path`, last job first, and goes on with one of `starts`. -/
structure Trail (g : JobGraph) (path starts : List String) : Prop where
  distinct : path.Nodup
  linked : ∀ start ∈ starts, (start :: path).IsChain fun name previous => g.Needs previous name

theorem Trail.tail {name : String} {rest : List String} (h : g.Trail path (name :: rest)) :
    g.Trail path rest :=
  ⟨h.distinct, fun start hstart => h.linked start (List.mem_cons_of_mem _ hstart)⟩

/-- Going on from a job that is not on the path extends the path by that job. -/
theorem Trail.descend {name : String} {rest needs : List String}
    (h : g.Trail path (name :: rest)) (hnew : name ∉ path)
    (hneeds : ∀ need ∈ needs, g.Needs name need) : g.Trail (name :: path) needs := by
  refine ⟨List.nodup_cons.mpr ⟨hnew, h.distinct⟩, fun need hneed => ?_⟩
  exact List.isChain_cons_cons.mpr ⟨hneeds need hneed, h.linked name List.mem_cons_self⟩

/-- A path that comes back to one of its jobs closes a cycle. -/
theorem Trail.isCycle {name : String} {rest : List String} (h : g.Trail path (name :: rest))
    (hmem : name ∈ path) :
    g.IsCycle (name :: (path.takeWhile fun other => other ≠ name).reverse) := by
  -- `front` is what the search has met since it stood on the job, last job first.
  obtain ⟨front, back, rfl, hfront⟩ := List.eq_append_cons_of_mem hmem
  have htake : ((front ++ name :: back).takeWhile fun other => other ≠ name) = front := by
    rw [List.takeWhile_append_of_pos, List.takeWhile_cons_of_neg (by simp), List.append_nil]
    intro other hother
    simpa using fun heq : other = name => hfront (heq ▸ hother)
  rw [htake]
  have hnodup : (name :: front.reverse).Nodup := by
    rw [List.nodup_cons, List.mem_reverse, List.nodup_reverse]
    exact ⟨hfront, (List.nodup_append.mp h.distinct).1⟩
  -- Read backwards, the part of the path between the two visits leads along edges.
  have hround : ((name :: front.reverse) ++ [name]).IsChain g.Needs := by
    have hchain := h.linked name List.mem_cons_self
    rw [← List.cons_append, show name :: back = [name] ++ back from rfl, ← List.append_assoc]
      at hchain
    have hback := List.isChain_reverse.mpr hchain.left_of_append
    simpa using hback
  obtain ⟨hchain, -, hclose⟩ := List.isChain_append.mp hround
  obtain ⟨last, hlast⟩ : ∃ last, (name :: front.reverse).getLast? = some last :=
    Option.isSome_iff_exists.mp (by simp)
  exact ⟨hnodup, last, hlast,
    List.isChain_cons_cons.mpr ⟨hclose last hlast name rfl, hchain⟩⟩

/-- **Soundness**: what the search reports is a cycle. -/
theorem isCycle_of_search_eq_error {cycle : List String} (htrail : g.Trail path starts)
    (h : g.search path done starts = .error cycle) : g.IsCycle cycle := by
  fun_induction g.search path done starts generalizing cycle with
  | case1 path done => cases h
  | case2 path done name rest _ ih => exact ih htrail.tail h
  | case3 path done name rest _ honPath =>
    rw [← Except.error.inj h]
    exact htrail.isCycle (List.contains_iff_mem.mp honPath)
  | case4 path done name rest _ _ _ ih => exact ih htrail.tail h
  | case5 path done name rest _ hoffPath job hfound found hinner ih =>
    have hnew : name ∉ path := fun hmem => hoffPath (List.contains_iff_mem.mpr hmem)
    rw [← Except.error.inj h]
    refine ih (htrail.descend hnew fun need hneed => ?_) hinner
    exact (needs_iff_of_get? hfound).mpr (List.mem_mergeSort.mp hneed)
  | case6 path done name rest _ _ job hfound done' _ _ ih => exact ih htrail.tail h

/-! ## Nothing is left without a report -/

/-- The jobs of a list need only each other, and none of them lies on a cycle. -/
structure Settled (g : JobGraph) (done : List String) : Prop where
  closed : ∀ name ∈ done, ∀ need, g.Needs name need → need ∈ done
  acyclic : ∀ name ∈ done, ¬ TransGen g.Needs name name

theorem settled_nil : g.Settled [] :=
  ⟨fun _ h => absurd h List.not_mem_nil, fun _ h => absurd h List.not_mem_nil⟩

/-- What settled jobs reach is settled. -/
theorem Settled.mem_of_transGen {first last : String} (h : g.Settled done) (hfirst : first ∈ done)
    (hreach : TransGen g.Needs first last) : last ∈ done := by
  induction hreach with
  | single hedge => exact h.closed _ hfirst _ hedge
  | tail _ hedge ih => exact h.closed _ ih _ hedge

/-- A job whose needs are settled is settled: a cycle through it would pass through a need, and
come back to the job from there. -/
theorem Settled.cons {name : String} (h : g.Settled done)
    (hneeds : ∀ need, g.Needs name need → need ∈ done) : g.Settled (name :: done) := by
  refine ⟨fun other hother need hneed => ?_, fun other hother hcycle => ?_⟩
  · rcases List.mem_cons.mp hother with rfl | hother
    · exact List.mem_cons_of_mem _ (hneeds need hneed)
    · exact List.mem_cons_of_mem _ (h.closed other hother need hneed)
  · rcases List.mem_cons.mp hother with rfl | hother
    · obtain ⟨need, hneed, hback⟩ := TransGen.head'_iff.mp hcycle
      have hdone := hneeds need hneed
      rcases reflTransGen_iff_eq_or_transGen.mp hback with heq | hback
      · exact h.acyclic need hdone (heq ▸ hcycle)
      · exact h.acyclic other (h.mem_of_transGen hdone hback) hcycle
    · exact h.acyclic other hother hcycle

/-- What is done stays so, and a search that ends without a report adds its starts. -/
theorem subset_of_search_eq_ok {done' : List String} (h : g.search path done starts = .ok done') :
    done ⊆ done' ∧ starts ⊆ done' := by
  fun_induction g.search path done starts generalizing done' with
  | case1 path done =>
    rw [← Except.ok.inj h]
    exact ⟨List.Subset.refl _, List.nil_subset _⟩
  | case2 path done name rest hdone ih =>
    obtain ⟨hsub, hrest⟩ := ih h
    exact ⟨hsub, List.cons_subset.mpr ⟨hsub (List.contains_iff_mem.mp hdone), hrest⟩⟩
  | case3 => cases h
  | case4 path done name rest _ _ _ ih =>
    obtain ⟨hsub, hrest⟩ := ih h
    obtain ⟨hmem, hsub⟩ := List.cons_subset.mp hsub
    exact ⟨hsub, List.cons_subset.mpr ⟨hmem, hrest⟩⟩
  | case5 path done name rest _ _ job _ found hinner => cases h
  | case6 path done name rest _ _ job _ inner hinner ihneeds ih =>
    obtain ⟨hsubInner, -⟩ := ihneeds hinner
    obtain ⟨hsub, hrest⟩ := ih h
    obtain ⟨hmem, hsub⟩ := List.cons_subset.mp hsub
    exact ⟨List.Subset.trans hsubInner hsub, List.cons_subset.mpr ⟨hmem, hrest⟩⟩

/-- **Completeness**: a search that ends without a report leaves only settled jobs behind it, its
starts among them, if it began with such. -/
theorem settled_of_search_eq_ok {done' : List String} (hsettled : g.Settled done)
    (h : g.search path done starts = .ok done') : g.Settled done' := by
  fun_induction g.search path done starts generalizing done' with
  | case1 path done => rwa [← Except.ok.inj h]
  | case2 path done name rest hdone ih => exact ih hsettled h
  | case3 => cases h
  | case4 path done name rest _ _ hmissing ih =>
    have hname : g.Settled (name :: done) :=
      hsettled.cons fun need hneed => absurd hneed (not_needs_of_get?_eq_none hmissing)
    exact ih hname h
  | case5 path done name rest _ _ job _ found hinner => cases h
  | case6 path done name rest _ _ job hfound inner hinner ihneeds ih =>
    obtain ⟨-, hneeds⟩ := subset_of_search_eq_ok hinner
    have hname : g.Settled (name :: inner) := (ihneeds hsettled hinner).cons fun need hneed =>
      hneeds (List.mem_mergeSort.mpr ((needs_iff_of_get? hfound).mp hneed))
    exact ih hname h

/-! ## The verdict -/

theorem isCycle_of_findCycle {cycle : List String} (h : g.findCycle = some cycle) :
    g.IsCycle cycle := by
  unfold findCycle at h
  split at h
  case h_1 found hfound =>
    rw [← Option.some.inj h]
    exact isCycle_of_search_eq_error ⟨List.nodup_nil, fun _ _ => List.isChain_singleton _⟩ hfound
  case h_2 => cases h

/-- The search reports nothing exactly when no job reaches itself. -/
theorem findCycle_eq_none_iff : g.findCycle = none ↔ g.Acyclic := by
  constructor
  · intro h
    unfold findCycle at h
    split at h
    case h_1 => cases h
    case h_2 done hdone =>
      have hsettled := settled_of_search_eq_ok settled_nil hdone
      obtain ⟨-, hnames⟩ := subset_of_search_eq_ok hdone
      intro name hcycle
      -- A job on a cycle has a need, so it is a job of the graph and the search was started there.
      have hmem : name ∈ done :=
        hnames (List.mem_mergeSort.mpr (mem_names_of_transGen hcycle))
      exact hsettled.acyclic name hmem hcycle
  · intro h
    cases hfound : g.findCycle with
    | none => rfl
    | some cycle => exact absurd h (not_acyclic_of_isCycle (isCycle_of_findCycle hfound))

/-- No unknown need is found exactly when every need is a job of the graph. -/
theorem unknownNeed?_eq_none_iff : g.unknownNeed? = none ↔ g.Closed := by
  unfold unknownNeed? Closed
  simp only [List.findSome?_eq_none_iff, Option.map_eq_none_iff, List.find?_eq_none,
    Bool.not_eq_true', Bool.not_eq_false, contains_iff]

/-- A graph is valid when its edges stay inside it and no job reaches itself. -/
theorem validate_eq_ok_iff : g.validate = .ok () ↔ g.Closed ∧ g.Acyclic := by
  rw [← unknownNeed?_eq_none_iff, ← findCycle_eq_none_iff]
  unfold validate
  cases hunknown : g.unknownNeed? with
  | some fault => simp
  | none => cases hcycle : g.findCycle <;> simp

/-- **Validation is exact**: for every graph, whatever its jobs need, the search ends, and the graph
is accepted exactly when each need of each job is a job of the graph and no job reaches itself
through one or more needs. Jobs may list a need twice, or themselves; distinct names are all that a
graph is built with. -/
theorem validate_accepts_iff (g : JobGraph) :
    g.validate = .ok () ↔
      (∀ job ∈ g.jobs, ∀ need ∈ job.needs, need ∈ g.names) ∧
        ∀ job ∈ g.jobs, ¬ TransGen g.Needs job.name job.name := by
  rw [validate_eq_ok_iff]
  refine and_congr Iff.rfl ⟨fun h job _ => h job.name, fun h name hcycle => ?_⟩
  obtain ⟨job, hmem, rfl⟩ := mem_names_iff.mp (mem_names_of_transGen hcycle)
  exact h job hmem hcycle

end AgentGate.JobGraph
