import AgentGate.Proofs.Json.Keyed
import AgentGate.Proofs.Json.Reading
import AgentGate.Schema.Basic

/-!
# Schemas and readings

A schema and a reading describe one language twice. A reading may refuse valid values, when the type
that it reads holds less than the schema allows; which ones, is a property of values that is put
together as schema and reading are.

- `Schema.Agrees`: the reading takes those valid values that have the property.
- `Schema.Agrees.list`, `Schema.Agrees.table`, `Schema.Agrees.choice`: composed values.
- `Schema.Agrees.record`: records, where two keys may stand for one field.
- `Schema.Agrees.plainRecord`: records in which every key stands for itself.
- `Schema.Agrees.flagOrRecord`: records in whose place a truth value may stand.
-/

namespace AgentGate

open Json

/-- The value is written as an integer, and one of so many bits without a sign. -/
def Json.IsNat (bits : Nat) : Json → Prop
  | .int n => 0 ≤ n ∧ n < Int.pow 2 bits
  | _ => False

instance (bits : Nat) : DecidablePred (Json.IsNat bits)
  | .int n => inferInstanceAs (Decidable (0 ≤ n ∧ n < Int.pow 2 bits))
  | .null | .bool _ | .float _ | .text _ | .array _ | .object _ => .isFalse id

namespace Schema

variable {α β : Type} {schema item : Schema} {options : List Schema} {read first second : Reading α}
  {fits fits' : Json → Prop} {value : Json} {members : List (String × Json)}
  {fields : List (String × Schema)} {required : List String} {shape : Shape} {start : α}
  {setField : α → String → Json → Except Misfit α} {fitsField : String → Json → Prop}

/-! ## Valid values -/

theorem exists_bool_of_accepts (h : boolean.accepts value = true) : ∃ b, value = .bool b := by
  cases value with
  | bool b => exact ⟨b, rfl⟩
  | null | int | float | text | array | object => cases h

theorem exists_text_of_accepts {rule : TextRule} (h : (text rule).accepts value = true) :
    ∃ content, value = .text content := by
  cases value with
  | text content => exact ⟨content, rfl⟩
  | null | bool | int | float | array | object => cases h

theorem exists_array_of_accepts (h : (list item).accepts value = true) :
    ∃ items, value = .array items ∧ ∀ found ∈ items, item.accepts found = true := by
  cases value with
  | array items => exact ⟨items, rfl, by simpa [accepts, violations] using h⟩
  | null | bool | int | float | text | object => cases h

/-- A valid table holds valid values under keys that are among the known ones, if there are such. -/
theorem exists_object_of_accepts_table {keys : Option (List String)}
    (h : (table keys item).accepts value = true) :
    ∃ members, value = .object members ∧ ∀ entry ∈ members,
      (∀ known ∈ keys, entry.1 ∈ known) ∧ item.accepts entry.2 = true := by
  cases value with
  | object members =>
    refine ⟨members, rfl, fun entry hentry => ?_⟩
    rw [accepts, List.isEmpty_iff, violations] at h
    obtain ⟨hkey, hitem⟩ := List.append_eq_nil_iff.mp (List.flatMap_eq_nil_iff.mp h entry hentry)
    refine ⟨?_, List.isEmpty_iff.mpr hitem⟩
    rintro known rfl
    refine Decidable.byContradiction fun hunknown => ?_
    change (if known.contains entry.1 then [] else _) = [] at hkey
    rw [if_neg (by rwa [List.contains_iff_mem])] at hkey
    cases hkey
  | null | bool | int | float | text | array => cases h

theorem exists_of_fieldViolations {key : String} (hkey : key ∈ fields.map Prod.fst)
    (h : fieldViolations fields key value = []) :
    ∃ schema, (key, schema) ∈ fields ∧ schema.accepts value = true := by
  induction fields with
  | nil => cases hkey
  | cons field rest ih =>
    obtain ⟨name, schema⟩ := field
    rw [fieldViolations] at h
    split at h
    case isTrue heq =>
      exact ⟨schema, heq ▸ List.mem_cons_self, List.isEmpty_iff.mpr h⟩
    case isFalse hne =>
      obtain ⟨found, hmem, hfound⟩ := ih ((List.mem_cons.mp hkey).resolve_left hne) h
      exact ⟨found, List.mem_cons_of_mem _ hmem, hfound⟩

/-- A valid record holds valid values under keys of its own. -/
theorem exists_object_of_accepts_record (h : (record required fields).accepts value = true) :
    ∃ members, value = .object members ∧ ∀ entry ∈ members,
      ∃ schema, (entry.1, schema) ∈ fields ∧ schema.accepts entry.2 = true := by
  cases value with
  | object members =>
    refine ⟨members, rfl, fun entry hentry => ?_⟩
    rw [accepts, List.isEmpty_iff, violations] at h
    obtain ⟨hkeys, hvalues⟩ := List.append_eq_nil_iff.mp h
    refine exists_of_fieldViolations ?_ (List.flatMap_eq_nil_iff.mp hvalues entry hentry)
    refine Decidable.byContradiction fun hunknown => ?_
    -- A key that is not known would be among the unexpected ones.
    have hunexpected : entry.1 ∈ (members.map Prod.fst).filter
        fun key => !(fields.map Prod.fst).contains key :=
      List.mem_filter.mpr ⟨List.mem_map_of_mem hentry, by simpa using hunknown⟩
    obtain ⟨-, hnone⟩ := List.append_eq_nil_iff.mp hkeys
    rw [if_neg (fun hempty => List.ne_nil_of_mem hunexpected (List.isEmpty_iff.mp hempty))] at hnone
    cases hnone
  | null | bool | int | float | text | array => cases h

/-- A valid choice between two is valid under exactly one of them. -/
theorem accepts_choice {one other : Schema} (h : (oneOf [one, other]).accepts value = true) :
    one.accepts value = true ∨ other.accepts value = true := by
  rw [← Bool.or_eq_true, ← Bool.not_eq_false, Bool.or_eq_false_iff]
  rintro ⟨hone, hother⟩
  rw [accepts, violations, validOptions, validOptions, validOptions, ← accepts, ← accepts, hone,
    hother] at h
  cases h

/-! ## Agreement -/

/-- The reading takes those valid values that have a property, and no other valid ones. -/
def Agrees (schema : Schema) (read : Reading α) (fits : Json → Prop) : Prop :=
  ∀ value, value.Keyed → schema.accepts value = true →
    ((∃ result, read value = .ok result) ↔ fits value)

/-- What is done with a value that was read makes no difference to which are. -/
theorem Agrees.map {f : α → β} (h : Agrees schema read fits) :
    Agrees schema (fun value => (read value).map f) fits := fun value hkeyed hvalid =>
  exists_map_eq_ok_iff.trans (h value hkeyed hvalid)

theorem Agrees.congr (h : Agrees schema read fits)
    (hfits : ∀ value, value.Keyed → schema.accepts value = true → (fits value ↔ fits' value)) :
    Agrees schema read fits' := fun value hkeyed hvalid =>
  (h value hkeyed hvalid).trans (hfits value hkeyed hvalid)

/-- A reading that takes all valid values that have a property which all values have. -/
theorem Agrees.total (h : Agrees schema read fits) (hfits : ∀ value, fits value) :
    Agrees schema read fun _ => True :=
  h.congr fun value _ _ => iff_of_true (hfits value) trivial

/-- Null may stand in place of values that the schema wants to be there. -/
theorem Agrees.optional (h : Agrees schema read fits) (hnull : schema.accepts .null = false) :
    Agrees schema (Json.optional read) fits := by
  intro value hkeyed hvalid
  have hne : value ≠ .null := by
    rintro rfl
    rw [hnull] at hvalid
    cases hvalid
  rw [optional_of_ne hne]
  exact h.map value hkeyed hvalid

theorem agrees_bool : Agrees boolean readBool fun _ => True := by
  intro value _ hvalid
  obtain ⟨b, rfl⟩ := exists_bool_of_accepts hvalid
  exact iff_of_true ⟨b, rfl⟩ trivial

theorem agrees_text (rule : TextRule) : Agrees (text rule) readText fun _ => True := by
  intro value _ hvalid
  obtain ⟨content, rfl⟩ := exists_text_of_accepts hvalid
  exact iff_of_true ⟨content, rfl⟩ trivial

theorem exists_readNat_iff {bits : Nat} {expected : String} :
    (∃ n, readNat bits expected value = .ok n) ↔ value.IsNat bits := by
  cases value with
  | int n =>
    rw [readNat]
    split
    case isTrue hbounds => exact iff_of_true ⟨_, rfl⟩ hbounds
    case isFalse hbounds => exact iff_of_false (fun ⟨_, h⟩ => nomatch h) hbounds
  | null | bool | float | text | array | object =>
    exact iff_of_false (fun ⟨_, h⟩ => nomatch h) id

/-- A number is read when it is an integer of the right size. -/
theorem agrees_nat (bits : Nat) (expected : String) (minimum : Int) :
    Agrees (integer minimum) (readNat bits expected) (IsNat bits) := fun _ _ _ =>
  exists_readNat_iff

/-! ## Composed values -/

theorem Agrees.list (h : Agrees item read fun _ => True) :
    Agrees (.list item) (Json.list read) fun _ => True := by
  intro value hkeyed hvalid
  obtain ⟨items, rfl, hitems⟩ := exists_array_of_accepts hvalid
  cases hkeyed with
  | array hkeyed =>
    refine iff_of_true (exists_mapM_eq_ok_iff.mpr fun found hfound => ?_) trivial
    exact (h found (hkeyed found hfound) (hitems found hfound)).mpr trivial

theorem Agrees.table (h : Agrees item read fits) :
    Agrees (.table none item) (Json.table read) fun value =>
      ∀ found ∈ value.values, fits found := by
  intro value hkeyed hvalid
  obtain ⟨members, rfl, hmembers⟩ := exists_object_of_accepts_table hvalid
  cases hkeyed with
  | object _ hkeyed =>
    have hentry : ∀ entry ∈ members,
        (∃ result, (do return (entry.1, ← read entry.2) : Except Misfit (String × α)) = .ok result)
          ↔ fits entry.2 := fun entry hentry =>
      exists_map_eq_ok_iff.trans (h entry.2 (hkeyed entry hentry) (hmembers entry hentry).2)
    calc (∃ result, Json.table read (.object members) = .ok result)
        ↔ ∃ results, members.mapM (fun entry => do return (entry.1, ← read entry.2))
          = .ok results := exists_map_eq_ok_iff
      _ ↔ ∀ entry ∈ members, fits entry.2 := by
        rw [exists_mapM_eq_ok_iff]
        exact forall₂_congr hentry
      _ ↔ ∀ found ∈ (Json.object members).values, fits found := List.forall_mem_map.symm

theorem Agrees.choice {one other : Schema} {name : String} (hone : Agrees one first fits)
    (hother : Agrees other second fits)
    (hsecond : ∀ value, one.accepts value = true → ¬∃ result, second value = .ok result)
    (hfirst : ∀ value, other.accepts value = true → ¬∃ result, first value = .ok result) :
    Agrees (.oneOf [one, other]) (Json.choice name first second) fits := by
  intro value hkeyed hvalid
  rw [Json.choice]
  rcases accepts_choice hvalid with hvalid | hvalid
  · rw [← hone value hkeyed hvalid]
    cases hread : first value with
    | ok result => exact Iff.rfl
    | error =>
      cases hread' : second value with
      | ok result => exact absurd ⟨result, hread'⟩ (hsecond value hvalid)
      | error => exact iff_of_false (fun ⟨_, h⟩ => nomatch h) fun ⟨_, h⟩ => nomatch h
  · rw [← hother value hkeyed hvalid]
    cases hread : first value with
    | ok result => exact absurd ⟨result, hread⟩ (hfirst value hvalid)
    | error =>
      cases hread' : second value with
      | ok result => exact Iff.rfl
      | error => exact iff_of_false (fun ⟨_, h⟩ => nomatch h) fun ⟨_, h⟩ => nomatch h

/-! ## Records -/

/-- All members of an object have a property. -/
def EachMember (fitsField : String → Json → Prop) (value : Json) : Prop :=
  ∀ entry ∈ value.members, fitsField entry.1 entry.2

/-- The members of an object make up a record when they stand for different fields, none of which is
there yet, and each of them fits its field. -/
theorem exists_foldlM_member_iff
    (hknown : ∀ entry ∈ members, ∃ field, shape.field? entry.1 = some field
      ∧ ∀ a, (∃ b, setField a field entry.2 = .ok b) ↔ fitsField entry.1 entry.2)
    (given : List String) (a : α) :
    (∃ draft, members.foldlM (Draft.member shape setField) { given, value := a } = .ok draft)
      ↔ (members.map fun entry => shape.field? entry.1).Nodup
        ∧ (∀ entry ∈ members, ∀ field ∈ given, shape.field? entry.1 ≠ some field)
        ∧ ∀ entry ∈ members, fitsField entry.1 entry.2 := by
  induction members generalizing given a with
  | nil => exact iff_of_true ⟨_, rfl⟩ ⟨List.nodup_nil, List.forall_mem_nil _, List.forall_mem_nil _⟩
  | cons entry rest ih =>
    obtain ⟨⟨field, hfield, hset⟩, hrest⟩ := List.forall_mem_cons.mp hknown
    have hmember : ∀ draft, Draft.member shape setField { given, value := a } entry = .ok draft
        ↔ field ∉ given ∧ ∃ b, setField a field entry.2 = .ok b
          ∧ { given := field :: given, value := b } = draft := by
      intro draft
      rw [Draft.member, hfield]
      show (if given.contains field then _ else _) = _ ↔ _
      by_cases hgiven : field ∈ given
      · rw [if_pos (List.contains_iff_mem.mpr hgiven)]
        exact iff_of_false (by simp) fun h => h.1 hgiven
      · rw [if_neg (by rwa [List.contains_iff_mem]), bind_eq_ok_iff, and_iff_right hgiven]
        simp only [pure, Except.pure, Except.ok.injEq]
    rw [List.foldlM_cons, List.map_cons, List.nodup_cons, List.forall_mem_cons,
      List.forall_mem_cons]
    simp only [bind_eq_ok_iff, hmember]
    constructor
    · rintro ⟨draft, _, ⟨hnew, b, hb, rfl⟩, hdraft⟩
      obtain ⟨hnodup, hgiven, hfits⟩ := (ih hrest _ _).mp ⟨draft, hdraft⟩
      refine ⟨⟨fun hmem => ?_, hnodup⟩, ⟨fun other hother heq => ?_, ?_⟩,
        (hset a).mp ⟨b, hb⟩, hfits⟩
      · obtain ⟨other, hother, heq⟩ := List.mem_map.mp hmem
        exact hgiven other hother field List.mem_cons_self (heq.trans hfield)
      · obtain rfl := Option.some.inj (hfield.symm.trans heq)
        exact hnew hother
      · exact fun other hother key hkey => hgiven other hother key (List.mem_cons_of_mem _ hkey)
    · rintro ⟨⟨hdistinct, hnodup⟩, ⟨hnew, hgiven⟩, hfit, hfits⟩
      have hfree : ∀ other ∈ rest, ∀ key ∈ field :: given, shape.field? other.1 ≠ some key := by
        intro other hother key hkey heq
        rcases List.mem_cons.mp hkey with rfl | hkey
        · exact hdistinct (List.mem_map.mpr ⟨other, hother, heq.trans hfield.symm⟩)
        · exact hgiven other hother key hkey heq
      obtain ⟨b, hb⟩ := (hset a).mpr hfit
      obtain ⟨draft, hdraft⟩ := (ih hrest (field :: given) b).mpr ⟨hnodup, hfree, hfits⟩
      exact ⟨draft, _, ⟨fun hmem => hnew field hmem hfield, b, hb, rfl⟩, hdraft⟩

theorem Agrees.record (hfields : ∀ entry ∈ fields, ∃ field, shape.field? entry.1 = some field
      ∧ ∀ a, Agrees entry.2 (setField a field) (fitsField entry.1)) :
    Agrees (.record required fields) (Json.record shape start setField) fun value =>
      (value.keys.map shape.field?).Nodup ∧ EachMember fitsField value := by
  intro value hkeyed hvalid
  obtain ⟨members, rfl, hmembers⟩ := exists_object_of_accepts_record hvalid
  cases hkeyed with
  | object _ hkeyed =>
    have hknown : ∀ entry ∈ members, ∃ field, shape.field? entry.1 = some field
        ∧ ∀ a, (∃ b, setField a field entry.2 = .ok b) ↔ fitsField entry.1 entry.2 := by
      intro entry hentry
      obtain ⟨schema, hschema, hvalid⟩ := hmembers entry hentry
      obtain ⟨field, hfield, hset⟩ := hfields _ hschema
      exact ⟨field, hfield, fun a => hset a entry.2 (hkeyed entry hentry) hvalid⟩
    calc (∃ result, Json.record shape start setField (.object members) = .ok result)
        ↔ ∃ draft, members.foldlM (Draft.member shape setField) { given := [], value := start }
          = .ok draft := exists_map_eq_ok_iff
      _ ↔ (members.map fun entry => shape.field? entry.1).Nodup
          ∧ ∀ entry ∈ members, fitsField entry.1 entry.2 := by
        rw [exists_foldlM_member_iff hknown]
        simp only [List.not_mem_nil, false_implies, implies_true, true_and]
      _ ↔ ((members.map Prod.fst).map shape.field?).Nodup
          ∧ EachMember fitsField (.object members) := by
        rw [List.map_map]
        rfl

/-- A record in which every key stands for itself. -/
theorem Agrees.plainRecord (hsub : fields.map Prod.fst ⊆ shape.fields)
    (hfields : ∀ entry ∈ fields, ∀ a, Agrees entry.2 (setField a entry.1) (fitsField entry.1)) :
    Agrees (.record required fields) (Json.record shape start setField)
      (EachMember fitsField) := by
  have hknown : ∀ entry ∈ fields, shape.field? entry.1 = some entry.1 := fun entry hentry =>
    if_pos (List.contains_iff_mem.mpr (hsub (List.mem_map_of_mem hentry)))
  have hrecord : Agrees (.record required fields) (Json.record shape start setField) _ :=
    Agrees.record fun entry hentry => ⟨entry.1, hknown entry hentry, hfields entry hentry⟩
  intro value hkeyed hvalid
  rw [hrecord value hkeyed hvalid]
  refine and_iff_right ?_
  obtain ⟨members, rfl, hmembers⟩ := exists_object_of_accepts_record hvalid
  cases hkeyed with
  | object hnodup _ =>
    have hfield : (members.map Prod.fst).map shape.field? = (members.map Prod.fst).map some := by
      rw [List.map_map, List.map_map]
      refine List.map_congr_left fun entry hentry => ?_
      obtain ⟨schema, hschema, -⟩ := hmembers entry hentry
      exact hknown _ hschema
    show ((members.map Prod.fst).map shape.field?).Nodup
    rw [hfield]
    exact hnodup.map (Option.some_injective _)

/-- A record in whose place a truth value may stand. -/
theorem Agrees.flagOrRecord {name : String} {readFlag readFields : Reading β}
    (hflag : ∀ b, ∃ result, readFlag (.bool b) = .ok result)
    (hflagObject : ∀ members, ¬∃ result, readFlag (.object members) = .ok result)
    (hfieldsBool : ∀ b, ¬∃ result, readFields (.bool b) = .ok result)
    (hfields : Agrees (.record required fields) readFields (EachMember fitsField)) :
    Agrees (.oneOf [boolean, .record required fields]) (Json.choice name readFlag readFields)
      (EachMember fitsField) := by
  refine Agrees.choice (fun value _ hvalid => ?_) hfields (fun value hvalid => ?_)
    fun value hvalid => ?_
  · obtain ⟨b, rfl⟩ := exists_bool_of_accepts hvalid
    -- A truth value has no members.
    exact iff_of_true (hflag b) nofun
  · obtain ⟨b, rfl⟩ := exists_bool_of_accepts hvalid
    exact hfieldsBool b
  · obtain ⟨members, rfl, -⟩ := exists_object_of_accepts_record hvalid
    exact hflagObject members

end Schema

end AgentGate
