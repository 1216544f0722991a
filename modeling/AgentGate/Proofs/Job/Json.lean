import AgentGate.Job.Reading
import AgentGate.Proofs.Job.Build
import AgentGate.Proofs.Json.Reader
import AgentGate.Proofs.Json.Reading
import AgentGate.Proofs.Permission

/-!
# Rendered job graphs

A job graph is written as a document from which it can be read again, whatever stands in its texts.
What is left out of the document is absent or empty, and what is not left out is under a key of its
own. So two graphs are not written alike.

- `Step.ofJson_toJson`, `Job.ofJson_toJson`: the parts of a graph.
- `JobGraph.exact_toJson`: a graph holds no numbers but timeouts.
- `JobGraph.render_lossless`: the document.
-/

namespace AgentGate

open Json

/-! ## Steps -/

theorem Step.keys_members (step : Step) :
    (step.members.map Prod.fst).Sublist Step.shape.fields := by
  simp only [Step.members, List.map_append]
  exact (((((((keys_textMember _ _).append (keys_textMember _ _)).append
    (keys_textMember _ _)).append (keys_textMember _ _)).append (keys_textMember _ _)).append
    (keys_tableMember _ _)).append (keys_tableMember _ _))

/-- A step is read from its object. -/
theorem Step.ofJson_toJson (step : Step) : Step.ofJson step.toJson = .ok step := by
  rw [Step.ofJson, Step.toJson, record_fields step.keys_members (by decide)]
  obtain ⟨name, id, condition, uses, run, inputs, env⟩ := step
  have hname : fill setField {} (textMember "name" name) = .ok { name } :=
    fill_textMember (fun | rfl => rfl) (by rintro given rfl; rfl)
  have hid : fill setField { name } (textMember "id" id) = .ok { name, id } :=
    fill_textMember (fun | rfl => rfl) (by rintro given rfl; rfl)
  have hcondition : fill setField { name, id } (textMember "if" condition)
      = .ok { name, id, condition } :=
    fill_textMember (fun | rfl => rfl) (by rintro given rfl; rfl)
  have huses : fill setField { name, id, condition } (textMember "uses" uses)
      = .ok { name, id, condition, uses } :=
    fill_textMember (fun | rfl => rfl) (by rintro given rfl; rfl)
  have hrun : fill setField { name, id, condition, uses } (textMember "run" run)
      = .ok { name, id, condition, uses, run } :=
    fill_textMember (fun | rfl => rfl) (by rintro given rfl; rfl)
  have hinputs : fill setField { name, id, condition, uses, run } (tableMember "with" inputs)
      = .ok { name, id, condition, uses, run, inputs } :=
    fill_tableMember (fun | rfl => rfl) (congrArg (Except.map _) (table_ofTexts _))
  have henv : fill setField { name, id, condition, uses, run, inputs } (tableMember "env" env)
      = .ok { name, id, condition, uses, run, inputs, env } :=
    fill_tableMember (fun | rfl => rfl) (congrArg (Except.map _) (table_ofTexts _))
  exact fill_append (fill_append (fill_append (fill_append (fill_append (fill_append
    hname hid) hcondition) huses) hrun) hinputs) henv

/-! ## Jobs -/

namespace Job

theorem keys_members (job : Job) : (job.members.map Prod.fst).Sublist shape.fields := by
  have hneeds : ((if job.needs.isEmpty then [] else [("needs", Json.texts job.needs)]).map
      Prod.fst).Sublist ["needs"] := by
    split
    case isTrue => exact List.nil_sublist _
    case isFalse => exact List.Sublist.refl _
  have htimeout : ((job.timeoutMinutes.toList.map fun (minutes : Nat) =>
      ("timeout-minutes", Json.int minutes)).map Prod.fst).Sublist ["timeout-minutes"] := by
    cases job.timeoutMinutes with
    | none => exact List.nil_sublist _
    | some minutes => exact List.Sublist.refl _
  simp only [members, List.map_append]
  exact ((((((hneeds.append (keys_textMember _ _)).append (List.Sublist.refl _)).append
    htimeout).append (keys_tableMember _ _)).append (keys_tableMember _ _)).append
    (List.Sublist.refl _))

/-- Timeouts are numbers of 32 bits. -/
def Timed (job : Job) : Prop :=
  ∀ minutes ∈ job.timeoutMinutes, minutes < Nat.pow 2 32

instance (job : Job) : Decidable job.Timed :=
  inferInstanceAs (Decidable (∀ minutes ∈ job.timeoutMinutes, minutes < Nat.pow 2 32))

theorem readNat32_of_lt {n : Nat} (h : n < Nat.pow 2 32) : readNat32 (.int n) = .ok n := by
  have hbound : (0 : Int) ≤ n ∧ (n : Int) < Int.pow 2 32 :=
    ⟨Int.natCast_nonneg n, Int.ofNat_lt.mpr h⟩
  rw [readNat32, readNat, if_pos hbound, Int.toNat_natCast]

/-- A job is read from its object, under its name. -/
theorem ofJson_toJson {job : Job} (h : job.Timed) : ofJson job.name job.toJson = .ok job := by
  rw [ofJson, toJson, record_fields job.keys_members (by decide)]
  obtain ⟨name, needs, condition, runsOn, permissions, timeoutMinutes, env, outputs, steps⟩ := job
  have hneeds : fill setField { name, runsOn := "" }
      (if needs.isEmpty then [] else [("needs", Json.texts needs)])
        = .ok { name, runsOn := "", needs } := by
    cases needs with
    | nil => rfl
    | cons first rest =>
      exact (fill_singleton _).trans (congrArg (Except.map _) (list_texts (first :: rest)))
  have hcondition : fill setField { name, runsOn := "", needs } (textMember "if" condition)
      = .ok { name, runsOn := "", needs, condition } :=
    fill_textMember (fun | rfl => rfl) (by rintro given rfl; rfl)
  have hfixed : fill setField { name, runsOn := "", needs, condition }
      [("runs-on", .text runsOn), ("permissions", permissions.toJson)]
        = .ok { name, runsOn, needs, condition, permissions } := by
    have hrunsOn : fill setField { name, runsOn := "", needs, condition }
        [("runs-on", .text runsOn)] = .ok { name, runsOn, needs, condition } :=
      fill_singleton _
    exact fill_append hrunsOn
      ((fill_singleton _).trans (congrArg (Except.map _) permissions.ofJson_toJson))
  have htimeout : fill setField { name, runsOn, needs, condition, permissions }
      (timeoutMinutes.toList.map fun (minutes : Nat) => ("timeout-minutes", .int minutes))
        = .ok { name, runsOn, needs, condition, permissions, timeoutMinutes } := by
    cases timeoutMinutes with
    | none => rfl
    | some minutes =>
      have hread : optional readNat32 (.int minutes) = .ok (some minutes) := by
        have hminutes := readNat32_of_lt (h minutes (Option.mem_some_self minutes))
        exact (optional_of_ne (by nofun)).trans (congrArg (Except.map some) hminutes)
      show fill setField _ [("timeout-minutes", .int minutes)] = _
      rw [fill_singleton, setField, hread]
      rfl
  have henv : fill setField { name, runsOn, needs, condition, permissions, timeoutMinutes }
      (tableMember "env" env)
        = .ok { name, runsOn, needs, condition, permissions, timeoutMinutes, env } :=
    fill_tableMember (fun | rfl => rfl) (congrArg (Except.map _) (table_ofTexts _))
  have houtputs : fill setField { name, runsOn, needs, condition, permissions, timeoutMinutes, env }
      (tableMember "outputs" outputs)
        = .ok { name, runsOn, needs, condition, permissions, timeoutMinutes, env, outputs } :=
    fill_tableMember (fun | rfl => rfl) (congrArg (Except.map _) (table_ofTexts _))
  have hsteps : fill setField
      { name, runsOn, needs, condition, permissions, timeoutMinutes, env, outputs }
      [("steps", .array (steps.map Step.toJson))]
        = .ok { name, runsOn, needs, condition, permissions, timeoutMinutes, env, outputs,
                steps } :=
    (fill_singleton _).trans (congrArg (Except.map _)
      (list_map fun step _ => step.ofJson_toJson))
  exact fill_append (fill_append (fill_append (fill_append (fill_append (fill_append
    hneeds hcondition) hfixed) htimeout) henv) houtputs) hsteps

end Job

/-! ## No numbers but timeouts -/

theorem Json.exact_textMember (key : String) (given : Option String) :
    ∀ entry ∈ textMember key given, entry.2.Exact := by
  cases given with
  | none => nofun
  | some given =>
    intro entry hentry
    obtain rfl := List.mem_singleton.mp hentry
    exact .text given

theorem Json.exact_ofTexts (t : Table String) : (ofTexts t).Exact := by
  refine .object fun entry hentry => ?_
  obtain ⟨entry, -, rfl⟩ := List.mem_map.mp hentry
  exact .text entry.2

theorem Json.exact_tableMember (key : String) (t : Table String) :
    ∀ entry ∈ tableMember key t, entry.2.Exact := by
  intro entry hentry
  rw [tableMember] at hentry
  split at hentry
  case isTrue => cases hentry
  case isFalse =>
    obtain rfl := List.mem_singleton.mp hentry
    exact exact_ofTexts t

theorem Json.exact_texts (items : List String) : (texts items).Exact := by
  refine .array fun item hitem => ?_
  obtain ⟨item, -, rfl⟩ := List.mem_map.mp hitem
  exact .text item

theorem Step.exact_toJson (step : Step) : step.toJson.Exact := by
  refine .object fun entry hentry => ?_
  simp only [members, List.mem_append] at hentry
  rcases hentry with (((((h | h) | h) | h) | h) | h) | h
  · exact exact_textMember _ _ entry h
  · exact exact_textMember _ _ entry h
  · exact exact_textMember _ _ entry h
  · exact exact_textMember _ _ entry h
  · exact exact_textMember _ _ entry h
  · exact exact_tableMember _ _ entry h
  · exact exact_tableMember _ _ entry h

theorem Job.exact_toJson {job : Job} (h : job.Timed) : job.toJson.Exact := by
  refine .object fun entry hentry => ?_
  simp only [members, List.mem_append] at hentry
  rcases hentry with ((((((hneeds | hcondition) | hfixed) | htimeout) | henv) | houtputs) | hsteps)
  · split at hneeds
    case isTrue => cases hneeds
    case isFalse =>
      obtain rfl := List.mem_singleton.mp hneeds
      exact exact_texts job.needs
  · exact exact_textMember _ _ entry hcondition
  · rw [List.mem_pair] at hfixed
    obtain rfl | rfl := hfixed
    · exact .text job.runsOn
    · exact job.permissions.exact_toJson
  · obtain ⟨minutes, hminutes, rfl⟩ := List.mem_map.mp htimeout
    have hbound : (minutes : Int) < Int.pow 2 32 :=
      Int.ofNat_lt.mpr (h minutes (Option.mem_toList.mp hminutes))
    have hlow : -Int.pow 2 63 ≤ 0 := by decide
    have hhigh : Int.pow 2 32 ≤ Int.pow 2 64 := by decide
    exact .int (hlow.trans (Int.natCast_nonneg minutes)) (hbound.trans_le hhigh)
  · exact exact_tableMember _ _ entry henv
  · exact exact_tableMember _ _ entry houtputs
  · obtain rfl := List.mem_singleton.mp hsteps
    refine .array fun item hitem => ?_
    obtain ⟨step, -, rfl⟩ := List.mem_map.mp hitem
    exact step.exact_toJson

/-! ## Graphs -/

namespace JobGraph

/-- The timeouts of all jobs are numbers of 32 bits. -/
def Timed (g : JobGraph) : Prop :=
  ∀ job ∈ g.jobs, job.Timed

instance (g : JobGraph) : Decidable g.Timed :=
  inferInstanceAs (Decidable (∀ job ∈ g.jobs, job.Timed))

variable {g : JobGraph}

/-- A graph is read from its object. -/
theorem ofJson_toJson (h : g.Timed) : ofJson g.toJson = .ok g := by
  rw [toJson, ofJson, assemble_eq_ok_iff, List.map_map]
  refine List.map_congr_left fun job hjob => ?_
  rw [Function.comp_apply, Job.ofJson_toJson (h job hjob)]
  rfl

theorem exact_toJson (h : g.Timed) : g.toJson.Exact := by
  refine .object fun entry hentry => ?_
  obtain ⟨job, hjob, rfl⟩ := List.mem_map.mp hentry
  exact Job.exact_toJson (h job hjob)

/-- A rendered graph is read as its object. -/
theorem ofText?_render (h : g.Timed) : ofText? g.render = some g.toJson :=
  ofText?_pretty (exact_toJson h) rfl

/-- **Rendering loses nothing.** Whatever stands in its texts, a graph is rendered as a JSON
document, and reading the document by the names of its fields gives back the graph: the same jobs in
the same order, with the same needs, conditions, runners, permissions, timeouts, variables, outputs
and steps. So two graphs that are rendered alike are the same graph. -/
theorem render_lossless (h : g.Timed) :
    (∃ value, ofText? g.render = some value ∧ ofJson value = .ok g)
      ∧ ∀ g' : JobGraph, g'.Timed → g'.render = g.render → g' = g := by
  refine ⟨⟨g.toJson, ofText?_render h, ofJson_toJson h⟩, fun g' h' hrender => ?_⟩
  have htoJson : g'.toJson = g.toJson := by
    rw [← Option.some_inj, ← ofText?_render h', ← ofText?_render h, hrender]
  have hok : (Except.ok g' : Except GraphMisfit JobGraph) = .ok g := by
    rw [← ofJson_toJson h', ← ofJson_toJson h, htoJson]
  exact Except.ok.inj hok

/-- A graph with unusual texts: quotes, control characters, empty keys, repeated needs. -/
def unusual : JobGraph where
  jobs :=
    [{ name := "z \"\\\n", runsOn := "" },
      { name := "a", needs := ["z \"\\\n", "z \"\\\n", ""], condition := some "\u0001\u001f/",
        runsOn := "\u2028\u00e9", permissions := (∅ : Permissions).set .idToken .none,
        timeoutMinutes := some 4294967295, env := Table.ofList [("", "\t"), ("if", "null")],
        steps := [{}, { name := some "", inputs := Table.ofList [("\"", "")] }] }]
  named := by decide
  distinct := by decide

theorem unusual_lossless :
    (∃ value, ofText? unusual.render = some value ∧ ofJson value = .ok unusual)
      ∧ ∀ g' : JobGraph, g'.Timed → g'.render = unusual.render → g' = unusual :=
  render_lossless (by decide)

end JobGraph

end AgentGate
