import AgentGate.Job.Store
import AgentGate.Proofs.Job.Build
import AgentGate.Proofs.Table

/-!
# The two parts of a graph under construction agree

A store keeps names and jobs apart, and its operations update one after the other. What ties the two
parts together is an invariant, which each edit keeps whether or not it fails; so it holds after any
edits, and there the store lists the jobs of the graph that the same edits make.

- `JobStore.Sound`: names listed once, each with a job of that name in the table, and no others.
- `JobStore.add_on`, `JobStore.editNeeds_on`: all that an operation does.
- `JobStore.jobs_insert_new`, `JobStore.Sound.jobs_insert_needs`: what that does to the listing.
- `JobStore.Follows`: the invariant of a run, kept by one edit (`Follows.step`).
- `JobStore.after_consistent`: the two parts agree after any edits, and a failed addition is undone.
-/

namespace AgentGate

/-- The job without what it needs. -/
def Job.bare (job : Job) : Job :=
  { job with needs := [] }

namespace JobStore

variable {s : JobStore} {g : JobGraph} {job : Job} {name : String} {added : List Job}

/-- The two parts of a store agree. -/
structure Sound (s : JobStore) : Prop where
  distinct : s.order.Nodup
  listed : ∀ name, name ∈ s.order ↔ name ∈ s.stored.keys
  keyed : ∀ name job, s.stored.get? name = some job → job.name = name
  named : "" ∉ s.order

/-! ## What the operations do -/

/-- An addition checks the name before it touches either part. -/
theorem add_on (job : Job) (s : JobStore) : (add job).on s
    = if job.name = "" then (.error .unnamedJob, s)
      else if s.stored.contains job.name then (.error (.duplicateJob job.name), s)
      else (.ok (), ⟨s.order ++ [job.name], s.stored.insert job.name job⟩) := by
  by_cases hname : job.name = ""
  · rw [if_pos hname, add, if_pos hname]
    rfl
  · rw [if_neg hname, add, if_neg hname]
    -- The second check reads the store that the operation is applied to.
    show Operation.on (if s.stored.contains job.name then throw (.duplicateJob job.name) else _) s
      = _
    by_cases htaken : s.stored.contains job.name
    · rw [if_pos htaken, if_pos htaken]
      rfl
    · rw [if_neg htaken, if_neg htaken]
      rfl

theorem editNeeds_on (name : String) (change : List String → List String) (s : JobStore) :
    (editNeeds name change).on s = (.ok (), match s.stored.get? name with
      | none => s
      | some job =>
        { s with stored := s.stored.insert name { job with needs := change job.needs } }) := by
  show Operation.on (match s.stored.get? name with
    | none => pure ()
    | some job => _) s = _
  cases s.stored.get? name <;> rfl

/-! ## Looking a job up -/

theorem Sound.contains_iff (hs : s.Sound) : s.stored.contains name = true ↔ name ∈ s.order := by
  rw [Table.contains_iff, hs.listed]

/-- Every name that is listed has its job. -/
theorem Sound.exists_get? (hs : s.Sound) (h : name ∈ s.order) :
    ∃ job, s.stored.get? name = some job ∧ job.name = name := by
  obtain ⟨job, hjob⟩ := Table.mem_keys_iff.mp ((hs.listed name).mp h)
  exact ⟨job, hjob, hs.keyed name job hjob⟩

/-- The listing passes over no name. -/
theorem Sound.map_name_jobs (hs : s.Sound) : s.jobs.map Job.name = s.order := by
  rw [jobs, List.map_filterMap]
  calc s.order.filterMap (fun name => (s.stored.get? name).map Job.name)
      = s.order.filterMap some := by
        refine List.filterMap_congr fun name hname => ?_
        obtain ⟨job, hjob, heq⟩ := hs.exists_get? hname
        rw [hjob, Option.map_some, heq]
    _ = s.order := List.filterMap_some

/-- The listing holds the jobs of the table. -/
theorem Sound.mem_jobs_iff (hs : s.Sound) : job ∈ s.jobs ↔ s.stored.get? job.name = some job := by
  rw [jobs, List.mem_filterMap]
  constructor
  · rintro ⟨name, -, hjob⟩
    rwa [hs.keyed name job hjob]
  · intro hjob
    exact ⟨job.name, (hs.listed _).mpr (Table.mem_keys_iff.mpr ⟨job, hjob⟩), hjob⟩

/-! ## What each update does to the listing -/

/-- A new name at the end, with its job in the table, lists that job at the end. -/
theorem jobs_insert_new (hnew : job.name ∉ s.order) :
    jobs ⟨s.order ++ [job.name], s.stored.insert job.name job⟩ = s.jobs ++ [job] := by
  show (s.order ++ [job.name]).filterMap (s.stored.insert job.name job).get? = _
  have hlast : [job.name].filterMap (s.stored.insert job.name job).get? = [job] := by
    rw [List.filterMap_cons, Table.get?_insert, if_pos rfl]
    rfl
  rw [List.filterMap_append, hlast]
  refine congrArg (· ++ [job]) (List.filterMap_congr fun name hname => ?_)
  have hne : name ≠ job.name := fun heq => hnew (heq ▸ hname)
  rw [Table.get?_insert, if_neg hne]

/-- A job in the table with other needs is listed where it was. -/
theorem Sound.jobs_insert_needs (hs : s.Sound) (hjob : s.stored.get? name = some job)
    (change : List String → List String) :
    jobs { s with stored := s.stored.insert name { job with needs := change job.needs } }
      = s.jobs.map fun other =>
        { other with
          needs := if other.name = name then change other.needs else other.needs } := by
  show s.order.filterMap (s.stored.insert name { job with needs := change job.needs }).get?
    = (s.order.filterMap s.stored.get?).map _
  rw [List.map_filterMap]
  refine List.filterMap_congr fun other _ => ?_
  rw [Table.get?_insert]
  by_cases heq : other = name
  · rw [if_pos heq, heq, hjob, Option.map_some, if_pos (hs.keyed name job hjob)]
  · rw [if_neg heq]
    cases hother : s.stored.get? other with
    | none => rfl
    | some found =>
      have hne : found.name ≠ name := hs.keyed other found hother ▸ heq
      rw [Option.map_some, if_neg hne]

/-! ## Every update keeps the parts in agreement -/

theorem sound_empty : (∅ : JobStore).Sound where
  distinct := List.nodup_nil
  listed _ := Iff.rfl
  keyed _ _ h := nomatch h
  named := List.not_mem_nil

theorem Sound.insert_new (hs : s.Sound) (hname : job.name ≠ "") (hnew : job.name ∉ s.order) :
    Sound ⟨s.order ++ [job.name], s.stored.insert job.name job⟩ where
  distinct := by
    refine List.nodup_append.mpr
      ⟨hs.distinct, List.nodup_singleton _, fun name hmem last hlast => ?_⟩
    rw [List.mem_singleton.mp hlast]
    exact fun heq => hnew (heq ▸ hmem)
  listed name := by
    show name ∈ s.order ++ [job.name] ↔ _
    simp only [List.mem_append, List.mem_singleton, hs.listed, Table.mem_keys_iff,
      Table.get?_insert]
    by_cases heq : name = job.name
    · exact ⟨fun _ => ⟨job, if_pos heq⟩, fun _ => .inr heq⟩
    · simp only [if_neg heq]
      exact or_iff_left heq
  keyed name other hother := by
    rw [Table.get?_insert] at hother
    split at hother
    case isTrue heq => rw [← Option.some.inj hother, heq]
    case isFalse => exact hs.keyed name other hother
  named := by
    intro hmem
    rcases List.mem_append.mp hmem with hmem | hmem
    · exact hs.named hmem
    · exact hname (List.mem_singleton.mp hmem).symm

theorem Sound.insert_needs (hs : s.Sound) (hjob : s.stored.get? name = some job)
    (needs : List String) :
    Sound { s with stored := s.stored.insert name { job with needs } } where
  distinct := hs.distinct
  listed other := by
    rw [hs.listed]
    simp only [Table.mem_keys_iff, Table.get?_insert]
    by_cases heq : other = name
    · rw [heq]
      exact ⟨fun _ => ⟨_, if_pos rfl⟩, fun _ => ⟨job, hjob⟩⟩
    · simp only [if_neg heq]
  keyed other found hfound := by
    rw [Table.get?_insert] at hfound
    split at hfound
    case isTrue heq =>
      rw [← Option.some.inj hfound, heq]
      exact hs.keyed name job hjob
    case isFalse => exact hs.keyed other found hfound
  named := hs.named

/-! ## Additions that fail and that do not -/

theorem Sound.add_fails_iff (hs : s.Sound) (job : Job) :
    (∃ fault, ((add job).on s).1 = .error fault) ↔ job.name = "" ∨ job.name ∈ s.order := by
  rw [add_on, ← hs.contains_iff]
  by_cases hname : job.name = ""
  · rw [if_pos hname]
    exact ⟨fun _ => .inl hname, fun _ => ⟨_, rfl⟩⟩
  · rw [if_neg hname, or_iff_right hname]
    split
    case isTrue htaken => exact ⟨fun _ => htaken, fun _ => ⟨_, rfl⟩⟩
    case isFalse htaken => exact ⟨fun ⟨_, h⟩ => (nomatch h), fun h => absurd h htaken⟩

/-- An addition that fails has done nothing by then. -/
theorem on_eq_of_add_fails {fault : GraphFault} (h : ((add job).on s).1 = .error fault) :
    ((add job).on s).2 = s := by
  rw [add_on] at h ⊢
  split at h
  case isTrue hname => rw [if_pos hname]
  case isFalse hname =>
    rw [if_neg hname]
    split at h
    case isTrue htaken => rw [if_pos htaken]
    case isFalse htaken => cases h

/-- One that does not fail lists its job behind all others. -/
theorem Sound.jobs_of_add (hs : s.Sound) (h : ((add job).on s).1 = .ok ()) :
    ((add job).on s).2.jobs = s.jobs ++ [job] := by
  rw [add_on] at h ⊢
  split at h
  case isTrue hname => cases h
  case isFalse hname =>
    rw [if_neg hname]
    split at h
    case isTrue htaken => cases h
    case isFalse htaken =>
      rw [if_neg htaken]
      exact jobs_insert_new (hs.contains_iff.not.mp htaken)

/-! ## Runs -/

/-- What holds along a run: the parts of the store agree, it lists the jobs of the graph, and these
are the jobs that were added, up to what they need. -/
structure Follows (before : JobStore × List Job) (g : JobGraph) : Prop where
  sound : before.1.Sound
  jobs : before.1.jobs = g.jobs
  added : before.1.jobs.map Job.bare = before.2.map Job.bare

theorem Follows.mem_order_iff {before : JobStore × List Job} (h : Follows before g) :
    name ∈ before.1.order ↔ name ∈ g.names := by
  rw [← h.sound.map_name_jobs, h.jobs]
  rfl

/-- One edit keeps it. -/
theorem Follows.step {before : JobStore × List Job} (h : Follows before g) (edit : JobEdit) :
    Follows (step before edit) (g.edited edit) := by
  cases edit with
  | add job =>
    rw [JobStore.step, add_on, JobGraph.edited]
    by_cases hname : job.name = ""
    · rw [if_pos hname, JobGraph.add, dif_pos hname]
      exact h
    rw [if_neg hname]
    by_cases htaken : job.name ∈ before.1.order
    · rw [if_pos (h.sound.contains_iff.mpr htaken), JobGraph.add, dif_neg hname,
        dif_pos (h.mem_order_iff.mp htaken)]
      exact h
    rw [if_neg (h.sound.contains_iff.not.mpr htaken)]
    obtain ⟨next, hnext⟩ := JobGraph.exists_add_eq_ok hname (h.mem_order_iff.not.mp htaken)
    rw [hnext]
    refine ⟨h.sound.insert_new hname htaken, ?_, ?_⟩
    · show JobStore.jobs _ = next.jobs
      rw [jobs_insert_new htaken, h.jobs, (JobGraph.add_eq_ok_iff.mp hnext).2.2]
    · show (JobStore.jobs _).map Job.bare = (before.2 ++ [job]).map Job.bare
      rw [jobs_insert_new htaken, List.map_append, List.map_append, h.added]
  | needs name change =>
    rw [JobStore.step, editNeeds_on, JobGraph.edited]
    have hrewired : ∀ jobs : List Job, (jobs.map fun other =>
        { other with
          needs := if other.name = name then change other.needs else other.needs }).map Job.bare
        = jobs.map Job.bare := fun jobs => List.map_map
    cases hjob : before.1.stored.get? name with
    | none =>
      refine ⟨h.sound, ?_, h.added⟩
      -- No job has that name, so none is rewired.
      show before.1.jobs = g.jobs.map _
      rw [h.jobs, List.map_congr_left fun other hother => ?_, List.map_id']
      have hne : other.name ≠ name := by
        rintro rfl
        rw [← h.jobs, h.sound.mem_jobs_iff, hjob] at hother
        cases hother
      dsimp only
      rw [if_neg hne]
    | some job =>
      refine ⟨h.sound.insert_needs hjob _, ?_, ?_⟩
      · show JobStore.jobs _ = g.jobs.map _
        rw [h.sound.jobs_insert_needs hjob, h.jobs]
      · show (JobStore.jobs _).map Job.bare = before.2.map Job.bare
        rw [h.sound.jobs_insert_needs hjob, hrewired, h.added]

/-- So it holds after any edits of the empty graph. -/
theorem follows_after (edits : List JobEdit) :
    Follows (after edits) (edits.foldl JobGraph.edited ∅) := by
  have hrun : ∀ (edits : List JobEdit) (before : JobStore × List Job) (g : JobGraph),
      Follows before g →
        Follows (edits.foldl JobStore.step before) (edits.foldl JobGraph.edited g) := by
    intro edits
    induction edits with
    | nil => exact fun _ _ h => h
    | cons edit rest ih => exact fun before g h => ih _ _ (h.step edit)
  exact hrun edits _ _ ⟨sound_empty, rfl, rfl⟩

theorem get?_eq_of_jobs_eq (hs : s.Sound) (h : s.jobs = g.jobs) (name : String) :
    s.stored.get? name = g.get? name := by
  refine Option.ext fun job => ?_
  rw [JobGraph.get?_eq_some_iff, ← h, hs.mem_jobs_iff]
  constructor
  · intro hjob
    have hname := hs.keyed name job hjob
    exact ⟨hname ▸ hjob, hname⟩
  · rintro ⟨hjob, rfl⟩
    exact hjob

/-- A store and a graph with the same jobs take up a job or refuse it with the same fault. -/
theorem Sound.fst_add_on (hs : s.Sound) (h : s.jobs = g.jobs) (job : Job) :
    ((add job).on s).1 = (g.add job).map fun _ => () := by
  have hnames : s.order = g.names := by rw [← hs.map_name_jobs, h, JobGraph.names]
  rw [add_on, JobGraph.add]
  by_cases hname : job.name = ""
  · rw [if_pos hname, dif_pos hname]
    rfl
  rw [if_neg hname, dif_neg hname]
  by_cases htaken : job.name ∈ s.order
  · rw [if_pos (hs.contains_iff.mpr htaken), dif_pos (hnames ▸ htaken)]
    rfl
  · rw [if_neg (hs.contains_iff.not.mpr htaken), dif_neg (hnames ▸ htaken)]
    rfl

/-- **The two parts agree.** After any edits of an empty graph, however additions and changes of
needs are interleaved, the order lists no name twice and exactly the names that have a job in the
table; each of these is the name of its job, and none is empty. The listing holds each job of the
table once, in the order of insertion, and it holds as many jobs as were added without a fault: the
very jobs, up to their needs. An addition fails just when the name is empty or taken, and then
leaves both parts as they were; otherwise it adds that job and changes no other. The same edits make
a job graph with these names, these jobs and this look-up, which refuses jobs with the same
faults. -/
theorem after_consistent (edits : List JobEdit) :
    ∃ s added, after edits = (s, added)
      ∧ s.order.Nodup
      ∧ (∀ name, name ∈ s.order ↔ name ∈ s.stored.keys)
      ∧ (∀ name job, s.stored.get? name = some job → job.name = name ∧ name ≠ "")
      ∧ s.jobs.map Job.name = s.order
      ∧ (∀ job, job ∈ s.jobs ↔ s.stored.get? job.name = some job)
      ∧ s.length = added.length
      ∧ s.jobs.map Job.bare = added.map Job.bare
      ∧ (∀ job, (∃ fault, ((add job).on s).1 = .error fault) ↔ job.name = "" ∨ job.name ∈ s.order)
      ∧ (∀ job fault, ((add job).on s).1 = .error fault → ((add job).on s).2 = s)
      ∧ (∀ job, ((add job).on s).1 = .ok () → ((add job).on s).2.jobs = s.jobs ++ [job])
      ∧ ∃ g : JobGraph, edits.foldl JobGraph.edited ∅ = g
        ∧ g.names = s.order ∧ g.jobs = s.jobs ∧ (∀ name, g.get? name = s.stored.get? name)
        ∧ ∀ job, (g.add job).map (fun _ => ()) = ((add job).on s).1 := by
  obtain ⟨hs, hjobs, hadded⟩ := follows_after edits
  generalize edits.foldl JobGraph.edited ∅ = g at hjobs
  generalize hafter : after edits = before at hs hjobs hadded
  obtain ⟨s, added⟩ := before
  dsimp only at hs hjobs hadded
  refine ⟨s, added, rfl, hs.distinct, hs.listed, fun name job hjob => ⟨hs.keyed name job hjob, ?_⟩,
    hs.map_name_jobs, fun job => hs.mem_jobs_iff, ?_, hadded, hs.add_fails_iff,
    fun job fault => on_eq_of_add_fails, fun job => hs.jobs_of_add, g, rfl, ?_, hjobs.symm,
    fun name => (get?_eq_of_jobs_eq hs hjobs name).symm, fun job => (hs.fst_add_on hjobs job).symm⟩
  · rintro rfl
    exact hs.named ((hs.listed "").mpr (Table.mem_keys_iff.mpr ⟨job, hjob⟩))
  · calc s.order.length
        = (s.jobs.map Job.name).length := by rw [hs.map_name_jobs]
      _ = (s.jobs.map Job.bare).length := by rw [List.length_map, List.length_map]
      _ = added.length := by rw [hadded, List.length_map]
  · rw [JobGraph.names, ← hjobs, hs.map_name_jobs]

end JobStore

end AgentGate
