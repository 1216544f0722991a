import AgentGate.Proofs.Result
import AgentGate.Json.Reading
import AgentGate.Schema.Basic

/-!
# Documents that differ in one place

Two documents that are written alike but for one value are told apart by a schema, or by a reading,
only if that value is: what stands around it is checked and read in the same way.

- `Json.DifferAt`: documents that differ in the value under a path of keys.
- `Schema.Leads`: the schema that counts under a path of keys.
- `Schema.Leads.accepts_leaf`, `Schema.Leads.accepts_of_differAt`: a document is valid only if that
  value is, and apart from that the value makes no difference.
- `Json.record_induction`: what every member keeps holds of the record.
- `Json.record_congr`, `Json.record_keeps`: a value makes no difference to a record if it makes none
  to its field, and what a field is set to is what the record has in it.
-/

namespace AgentGate

namespace Json

/-- Two documents that are alike but for the values under a path of keys. -/
inductive DifferAt (old new : Json) : List String → Json → Json → Prop where
  | here : DifferAt old new [] old new
  | member {path : List String} {inner inner' : Json} (key : String)
    (before after : List (String × Json)) (h : DifferAt old new path inner inner') :
    DifferAt old new (key :: path) (.object (before ++ (key, inner) :: after))
      (.object (before ++ (key, inner') :: after))

variable {old new document document' : Json} {key : String} {path : List String}

theorem DifferAt.symm (h : DifferAt old new path document document') :
    DifferAt new old path document' document := by
  induction h with
  | here => exact .here
  | member key before after _ ih => exact .member key before after ih

theorem DifferAt.exists_member (h : DifferAt old new (key :: path) document document') :
    ∃ before after inner inner', document = .object (before ++ (key, inner) :: after)
      ∧ document' = .object (before ++ (key, inner') :: after)
      ∧ DifferAt old new path inner inner' := by
  cases h with
  | member _ before after h => exact ⟨before, after, _, _, rfl, rfl, h⟩

end Json

/-! ## Valid documents -/

namespace Schema

open Json

variable {old new document document' : Json} {key : String} {path : List String}
  {schema leaf sub : Schema} {required : List String} {fields : List (String × Schema)}

/-- The schema that a value must satisfy under a path of keys. -/
inductive Leads (leaf : Schema) : Schema → List String → Prop where
  | here : Leads leaf leaf []
  /-- Into a record. -/
  | field {key : String} {sub : Schema} {path : List String} (required : List String)
    {fields : List (String × Schema)}
    (hsub : ∀ value, fieldViolations fields key value = sub.violations value)
    (h : Leads leaf sub path) : Leads leaf (.record required fields) (key :: path)
  /-- Into a record in whose place a truth value may stand. -/
  | flagOr {key : String} {path : List String} {required : List String}
    {fields : List (String × Schema)} (h : Leads leaf (.record required fields) (key :: path)) :
    Leads leaf (.oneOf [boolean, .record required fields]) (key :: path)

/-- A record is valid when its keys are those that it should have and their values are valid. -/
theorem accepts_record_iff {members : List (String × Json)} :
    (record required fields).accepts (.object members) = true
      ↔ keyViolations required (fields.map Prod.fst) members = []
        ∧ ∀ entry ∈ members, fieldViolations fields entry.1 entry.2 = [] := by
  rw [accepts, List.isEmpty_iff, violations, List.append_eq_nil_iff, List.flatMap_eq_nil_iff]

/-- An object is no truth value. -/
theorem accepts_flagOr {members : List (String × Json)} :
    (oneOf [boolean, record required fields]).accepts (.object members)
      = (record required fields).accepts (.object members) := by
  rw [accepts, violations, validOptions, validOptions, validOptions, ← accepts, ← accepts]
  cases (record required fields).accepts (.object members) with
  | false => rfl
  | true => rfl

/-- A document is valid only if the value under a path is. -/
theorem Leads.accepts_leaf (h : Leads leaf schema path)
    (hdiffer : DifferAt old new path document document')
    (hvalid : schema.accepts document = true) : leaf.accepts old = true := by
  induction h generalizing document document' with
  | here =>
    cases hdiffer
    exact hvalid
  | field required hsub h ih =>
    cases hdiffer with
    | member _ before after hinner =>
      obtain ⟨-, hvalues⟩ := accepts_record_iff.mp hvalid
      refine ih hinner ?_
      rw [accepts, List.isEmpty_iff, ← hsub]
      exact hvalues _ (List.mem_append_right before List.mem_cons_self)
  | flagOr h ih =>
    cases hdiffer with
    | member _ before after hinner =>
      rw [accepts_flagOr] at hvalid
      exact ih (.member _ before after hinner) hvalid

/-- Apart from its own validity, a value makes no difference to whether the document is valid. -/
theorem Leads.accepts_of_differAt (h : Leads leaf schema path)
    (hdiffer : DifferAt old new path document document') (hnew : leaf.accepts new = true)
    (hvalid : schema.accepts document = true) : schema.accepts document' = true := by
  induction h generalizing document document' with
  | here =>
    cases hdiffer
    exact hnew
  | field required hsub h ih =>
    cases hdiffer with
    | member _ before after hinner =>
      obtain ⟨hkeys, hvalues⟩ := accepts_record_iff.mp hvalid
      obtain ⟨hbefore, hvalue, hafter⟩ := List.forall_mem_append.mp hvalues |>.imp_right
        List.forall_mem_cons.mp
      rw [hsub, ← List.isEmpty_iff, ← accepts] at hvalue
      have hvalue' := ih hinner hvalue
      rw [accepts, List.isEmpty_iff, ← hsub] at hvalue'
      refine accepts_record_iff.mpr ⟨?_, ?_⟩
      · -- The keys are the same.
        unfold keyViolations at hkeys ⊢
        rwa [List.map_append, List.map_cons] at hkeys ⊢
      · exact List.forall_mem_append.mpr ⟨hbefore, List.forall_mem_cons.mpr ⟨hvalue', hafter⟩⟩
  | flagOr h ih =>
    cases hdiffer with
    | member _ before after hinner =>
      rw [accepts_flagOr] at hvalid ⊢
      exact ih (.member _ before after hinner) hvalid

end Schema

/-! ## Records -/

namespace Json

variable {α β : Type} {shape : Shape} {setField : α → String → Json → Except Misfit α}
  {start result : α} {key field : String} {before after : List (String × Json)} {old new : Json}

/-- A value makes no difference to a record if it makes none to its field. -/
theorem record_congr (hfield : shape.field? key = some field)
    (hset : ∀ a, setField a field old = setField a field new) :
    record shape start setField (.object (before ++ (key, old) :: after))
      = record shape start setField (.object (before ++ (key, new) :: after)) := by
  have hmember : ∀ draft, Draft.member shape setField draft (key, old)
      = Draft.member shape setField draft (key, new) := by
    intro draft
    rw [Draft.member, Draft.member, hfield]
    dsimp only
    rw [hset]
  rw [record, record, List.foldlM_append, List.foldlM_append]
  simp only [List.foldlM_cons, hmember]

/-- What a member does to a record under construction. -/
theorem member_cases {draft next : Draft α} {entry : String × Json}
    (h : Draft.member shape setField draft entry = .ok next) :
    (shape.field? entry.1 = none ∧ next = draft)
      ∨ ∃ field value, shape.field? entry.1 = some field ∧ field ∉ draft.given
        ∧ setField draft.value field entry.2 = .ok value
        ∧ next = { given := field :: draft.given, value } := by
  rw [Draft.member] at h
  split at h
  case h_1 hnone =>
    split at h
    case isTrue =>
      cases h
      exact .inl ⟨hnone, rfl⟩
    case isFalse => cases h
  case h_2 field hfield =>
    split at h
    case isTrue => cases h
    case isFalse hnew =>
      obtain ⟨value, hvalue, hnext⟩ := bind_eq_ok_iff.mp h
      cases hnext
      exact .inr ⟨field, value, hfield, fun hgiven => hnew (List.contains_iff_mem.mpr hgiven),
        hvalue, rfl⟩

/-- What holds of the start and is kept by every member holds of the record. -/
theorem record_induction {members : List (String × Json)} {holds : α → Prop} (hstart : holds start)
    (hkeep : ∀ a b key field value, (key, value) ∈ members → shape.field? key = some field →
      holds a → setField a field value = .ok b → holds b)
    (h : record shape start setField (.object members) = .ok result) : holds result := by
  have hrun : ∀ (rest : List (String × Json)) (draft last : Draft α), rest ⊆ members →
      holds draft.value → rest.foldlM (Draft.member shape setField) draft = .ok last →
      holds last.value := by
    intro rest
    induction rest with
    | nil =>
      intro draft last _ hdraft hlast
      cases hlast
      exact hdraft
    | cons entry rest ih =>
      intro draft last hsubset hdraft hlast
      obtain ⟨hentry, hrest⟩ := List.cons_subset.mp hsubset
      rw [List.foldlM_cons, bind_eq_ok_iff] at hlast
      obtain ⟨next, hnext, hlast⟩ := hlast
      obtain ⟨-, rfl⟩ | ⟨field, value, hfield, -, hvalue, rfl⟩ := member_cases hnext
      · exact ih _ _ hrest hdraft hlast
      · exact ih _ _ hrest (hkeep _ _ _ _ _ hentry hfield hdraft hvalue) hlast
  rw [record, bind_eq_ok_iff] at h
  obtain ⟨last, hlast, hresult⟩ := h
  cases hresult
  exact hrun members _ last (List.Subset.refl _) hstart hlast

variable {shown : α → β}

/-- Further members leave alone what the record shows of a field that it has been given. -/
theorem foldlM_member_keeps {members : List (String × Json)} {draft last : Draft α}
    (hkeep : ∀ a b other value, other ≠ field → setField a other value = .ok b → shown b = shown a)
    (hgiven : field ∈ draft.given)
    (h : members.foldlM (Draft.member shape setField) draft = .ok last) :
    shown last.value = shown draft.value := by
  induction members generalizing draft with
  | nil =>
    cases h
    rfl
  | cons entry rest ih =>
    rw [List.foldlM_cons, bind_eq_ok_iff] at h
    obtain ⟨next, hnext, hrest⟩ := h
    obtain ⟨-, rfl⟩ | ⟨other, value, -, hnew, hvalue, rfl⟩ := member_cases hnext
    · exact ih hgiven hrest
    · rw [ih (List.mem_cons_of_mem _ hgiven) hrest]
      refine hkeep _ _ _ _ ?_ hvalue
      rintro rfl
      exact hnew hgiven

/-- What a record shows of a field is what it was set to. -/
theorem record_keeps (hfield : shape.field? key = some field)
    (hkeep : ∀ a b other value, other ≠ field → setField a other value = .ok b → shown b = shown a)
    (h : record shape start setField (.object (before ++ (key, new) :: after)) = .ok result) :
    ∃ a b, setField a field new = .ok b ∧ shown result = shown b := by
  rw [record, List.foldlM_append, bind_eq_ok_iff] at h
  obtain ⟨last, hlast, hresult⟩ := h
  obtain rfl : last.value = result := Except.ok.inj hresult
  obtain ⟨first, -, hfirst⟩ := bind_eq_ok_iff.mp hlast
  rw [List.foldlM_cons, bind_eq_ok_iff] at hfirst
  obtain ⟨next, hnext, hafter⟩ := hfirst
  obtain ⟨hnone, -⟩ | ⟨_, value, hsome, -, hvalue, rfl⟩ := member_cases hnext
  · cases hnone.symm.trans hfield
  · obtain rfl := Option.some.inj (hsome.symm.trans hfield)
    exact ⟨first.value, value, hvalue, foldlM_member_keeps hkeep List.mem_cons_self hafter⟩

end Json

end AgentGate
