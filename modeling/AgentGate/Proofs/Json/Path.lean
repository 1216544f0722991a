import AgentGate.Job.Json
import AgentGate.Proofs.Table

/-!
# Where texts stand in a value

A text stands in a value at a path, which names a key for each object on the way to it. The items of
an array stand where the array does.

- `Json.Holds`: a text stands in a value at a path.
- `Json.holds_textMember_iff`, `Json.holds_tableMember`: in members that may be left out.
- `Job.holds_condition`, `Job.holds_runsOn`, `Job.holds_stepId`: where some texts of a job stand.
- `Step.holds_cases`, `Job.holds_cases`: what is written of a job is in its texts or in one of a few
  other fields.
- `Job.mem_texts_of_holds`: what is written of a job, apart from these fields, is in its texts.
-/

namespace AgentGate

namespace Json

/-- A text stands in a value at a path of keys. -/
inductive Holds : Json → List String → String → Prop where
  | text (s : String) : Holds (.text s) [] s
  | item {items : List Json} {value : Json} {path : List String} {s : String}
    (hmem : value ∈ items) (h : value.Holds path s) : Holds (.array items) path s
  | member {members : List (String × Json)} {key : String} {value : Json} {path : List String}
    {s : String} (hmem : (key, value) ∈ members) (h : value.Holds path s) :
    Holds (.object members) (key :: path) s

variable {path : List String} {s t key : String} {members members' : List (String × Json)}

theorem holds_text_iff : Holds (.text t) path s ↔ path = [] ∧ t = s := by
  constructor
  · intro h
    cases h
    exact ⟨rfl, rfl⟩
  · rintro ⟨rfl, rfl⟩
    exact .text t

theorem holds_object_iff : Holds (.object members) path s
    ↔ ∃ key value rest, (key, value) ∈ members ∧ path = key :: rest ∧ value.Holds rest s := by
  constructor
  · intro h
    cases h with
    | member hmem h => exact ⟨_, _, _, hmem, rfl, h⟩
  · rintro ⟨key, value, rest, hmem, rfl, h⟩
    exact .member hmem h

theorem holds_array_iff {items : List Json} : Holds (.array items) path s
    ↔ ∃ value ∈ items, value.Holds path s := by
  constructor
  · intro h
    cases h with
    | item hmem h => exact ⟨_, hmem, h⟩
  · rintro ⟨value, hmem, h⟩
    exact .item hmem h

theorem holds_append : Holds (.object (members ++ members')) path s
    ↔ Holds (.object members) path s ∨ Holds (.object members') path s := by
  simp only [holds_object_iff, List.mem_append, or_and_right, exists_or]

theorem holds_singleton {value : Json} : Holds (.object [(key, value)]) path s
    ↔ ∃ rest, path = key :: rest ∧ value.Holds rest s := by
  simp only [holds_object_iff, List.mem_singleton, Prod.mk.injEq]
  constructor
  · rintro ⟨_, _, rest, ⟨rfl, rfl⟩, hpath, h⟩
    exact ⟨rest, hpath, h⟩
  · rintro ⟨rest, hpath, h⟩
    exact ⟨_, _, rest, ⟨rfl, rfl⟩, hpath, h⟩

theorem not_holds_nil : ¬ Holds (.object []) path s := fun h => by
  obtain ⟨_, _, _, hmem, -⟩ := holds_object_iff.mp h
  cases hmem

/-! ## Members that may be left out -/

theorem holds_textMember_iff {value : Option String} : Holds (.object (textMember key value)) path s
    ↔ path = [key] ∧ value = some s := by
  cases value with
  | none => exact iff_of_false not_holds_nil fun h => nomatch h.2
  | some t =>
    show Holds (.object [(key, .text t)]) path s ↔ _
    simp only [holds_singleton, holds_text_iff, Option.some.injEq]
    constructor
    · rintro ⟨_, hpath, rfl, h⟩
      exact ⟨hpath, h⟩
    · rintro ⟨hpath, h⟩
      exact ⟨[], hpath, rfl, h⟩

theorem mem_values_of_holds_ofTexts {table : Table String} (h : (ofTexts table).Holds path s) :
    s ∈ table.values := by
  obtain ⟨key, value, rest, hmem, -, h⟩ := holds_object_iff.mp h
  obtain ⟨entry, hentry, heq⟩ := List.mem_map.mp hmem
  obtain ⟨rfl, rfl⟩ := Prod.mk.inj heq
  obtain ⟨-, rfl⟩ := holds_text_iff.mp h
  exact List.mem_map_of_mem hentry

theorem holds_tableMember {table : Table String}
    (h : Holds (.object (tableMember key table)) path s) : s ∈ table.values := by
  rw [tableMember] at h
  split at h
  · exact absurd h not_holds_nil
  · obtain ⟨rest, -, h⟩ := holds_singleton.mp h
    exact mem_values_of_holds_ofTexts h

end Json

open Json

variable {path : List String} {s : String}

/-- What is written of a step is its identifier or in its texts. -/
theorem Step.holds_cases {step : Step} (h : step.toJson.Holds path s) :
    path = ["id"] ∧ step.id = some s ∨ s ∈ step.texts := by
  rw [Step.toJson, Step.members] at h
  simp only [holds_append, holds_textMember_iff] at h
  simp only [Step.texts, List.mem_append, Option.mem_toList]
  rcases h with (((((⟨-, h⟩ | hid) | ⟨-, h⟩) | ⟨-, h⟩) | ⟨-, h⟩) | h) | h
  · exact .inr (.inl (.inl (.inl (.inl (.inl h)))))
  · exact .inl hid
  · exact .inr (.inl (.inl (.inl (.inl (.inr h)))))
  · exact .inr (.inl (.inl (.inl (.inr h))))
  · exact .inr (.inl (.inl (.inr h)))
  · exact .inr (.inl (.inr (holds_tableMember h)))
  · exact .inr (.inr (holds_tableMember h))

/-- The identifier of a step is written under its key. -/
theorem Step.holds_id {step : Step} (h : step.id = some s) : step.toJson.Holds ["id"] s := by
  rw [Step.toJson, Step.members]
  simp only [holds_append, holds_textMember_iff]
  exact .inl (.inl (.inl (.inl (.inl (.inr ⟨trivial, h⟩)))))

namespace Job

variable {job : Job}

/-! ### What is written of a job -/

theorem holds_condition (h : job.condition = some s) : job.toJson.Holds ["if"] s := by
  rw [toJson, members]
  simp only [holds_append, holds_textMember_iff]
  exact .inl (.inl (.inl (.inl (.inl (.inr ⟨trivial, h⟩)))))

theorem holds_runsOn (job : Job) : job.toJson.Holds ["runs-on"] job.runsOn := by
  rw [toJson, members]
  simp only [holds_append]
  exact .inl (.inl (.inl (.inl (.inr (.member List.mem_cons_self (.text _))))))

theorem holds_stepId {step : Step} (hstep : step ∈ job.steps) (hid : step.id = some s) :
    job.toJson.Holds ["steps", "id"] s := by
  rw [toJson, members]
  simp only [holds_append]
  exact .inr (.member List.mem_cons_self (.item (List.mem_map_of_mem hstep) (Step.holds_id hid)))

/-- The fields of a job whose texts are written, but do not count among its texts. -/
def unscanned : List (List String) :=
  [["needs"], ["runs-on"], ["steps", "id"]]

/-- What is written of a job is in its texts, or it stands in a field of its own: a job that it
needs, its runner, the identifier of one of its steps or the level of a permission. -/
theorem holds_cases (h : job.toJson.Holds path s) :
    path = ["needs"] ∧ s ∈ job.needs ∨ path = ["runs-on"] ∧ s = job.runsOn
      ∨ path = ["steps", "id"] ∧ (∃ step ∈ job.steps, step.id = some s)
      ∨ s ∈ job.texts ∨ ∃ level : Level, s = level.name := by
  rw [toJson, members] at h
  simp only [holds_append, holds_textMember_iff] at h
  simp only [texts, List.mem_append, Option.mem_toList]
  rcases h with (((((h | ⟨-, h⟩) | h) | h) | h) | h) | h
  case inl.inl.inl.inl.inl.inl =>
    split at h
    · exact absurd h not_holds_nil
    · obtain ⟨rest, rfl, hneeds⟩ := holds_singleton.mp h
      obtain ⟨value, hvalue, hneed⟩ := holds_array_iff.mp hneeds
      obtain ⟨need, hmem, rfl⟩ := List.mem_map.mp hvalue
      obtain ⟨rfl, rfl⟩ := holds_text_iff.mp hneed
      exact .inl ⟨rfl, hmem⟩
  case inl.inl.inl.inl.inl.inr => exact .inr (.inr (.inr (.inl (.inl (.inl (.inl h))))))
  case inl.inl.inl.inl.inr =>
    obtain ⟨key, value, rest, hmem, rfl, h⟩ := holds_object_iff.mp h
    rcases List.mem_pair.mp hmem with heq | heq <;> obtain ⟨rfl, rfl⟩ := Prod.mk.inj heq
    · obtain ⟨rfl, rfl⟩ := holds_text_iff.mp h
      exact .inr (.inl ⟨rfl, rfl⟩)
    · obtain ⟨scope, value, rest, hmem, -, h⟩ := holds_object_iff.mp h
      obtain ⟨entry, -, heq⟩ := List.mem_map.mp hmem
      obtain ⟨-, rfl⟩ := Prod.mk.inj heq
      exact .inr (.inr (.inr (.inr ⟨entry.2, (holds_text_iff.mp h).2.symm⟩)))
  case inl.inl.inl.inr =>
    obtain ⟨key, value, rest, hmem, -, h⟩ := holds_object_iff.mp h
    obtain ⟨minutes, -, heq⟩ := List.mem_map.mp hmem
    obtain ⟨-, rfl⟩ := Prod.mk.inj heq
    cases h
  case inl.inl.inr =>
    exact .inr (.inr (.inr (.inl (.inl (.inl (.inr (holds_tableMember h)))))))
  case inl.inr => exact .inr (.inr (.inr (.inl (.inl (.inr (holds_tableMember h))))))
  case inr =>
    obtain ⟨rest, rfl, hsteps⟩ := holds_singleton.mp h
    obtain ⟨value, hvalue, hstep⟩ := holds_array_iff.mp hsteps
    obtain ⟨step, hmem, rfl⟩ := List.mem_map.mp hvalue
    rcases Step.holds_cases hstep with ⟨rfl, hid⟩ | htext
    · exact .inr (.inr (.inl ⟨rfl, step, hmem, hid⟩))
    · exact .inr (.inr (.inr (.inl (.inr (List.mem_flatMap.mpr ⟨step, hmem, htext⟩)))))

/-- What is written of a job is in its texts, apart from what it needs, its runner, the identifiers
of its steps and the levels of its permissions. -/
theorem mem_texts_of_holds (h : job.toJson.Holds path s)
    (hpath : path ∉ unscanned) : s ∈ job.texts ∨ ∃ level : Level, s = level.name := by
  rcases holds_cases h with ⟨rfl, -⟩ | ⟨rfl, -⟩ | ⟨rfl, -⟩ | h
  · exact absurd List.mem_cons_self hpath
  · exact absurd (List.mem_cons_of_mem _ List.mem_cons_self) hpath
  · exact absurd (List.mem_cons_of_mem _ (List.mem_cons_of_mem _ List.mem_cons_self)) hpath
  · exact h

end Job

end AgentGate
