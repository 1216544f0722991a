import AgentGate.Job.Json
import AgentGate.Proofs.Result
import AgentGate.Proofs.Table

/-!
# Reading records

A record is read from an object member by member. When the members stand for different fields, none
of them depends on which were read before it: reading the object is setting the fields in a row.

- `Json.fill`: a record with some fields set, one after the other.
- `Json.record_object`: reading an object whose members stand for different fields.
- `Json.fill_textMember`, `Json.fill_tableMember`: members that are left out when there is nothing
  to write.
- `Json.list_map`, `Json.table_ofTexts`: lists and tables are read from what is written of them.
-/

namespace AgentGate.Json

variable {α β : Type} {shape : Shape} {setField : α → String → Json → Except Misfit α} {a b c : α}
  {key : String} {members fields fields' : List (String × Json)}

/-! ## Fields in a row -/

/-- A record with some fields set, one after the other. -/
def fill (setField : α → String → Json → Except Misfit α) (start : α)
    (fields : List (String × Json)) : Except Misfit α :=
  fields.foldlM (fun value entry => setField value entry.1 entry.2) start

/-- Members that stand for different fields, none of which is there yet, set these. -/
theorem foldlM_member {given : List String}
    (hfields : members.map (fun entry => (shape.field? entry.1, entry.2))
      = fields.map fun entry => (some entry.1, entry.2))
    (hnodup : (fields.map Prod.fst).Nodup) (hgiven : ∀ entry ∈ fields, entry.1 ∉ given) :
    (Draft.value <$> members.foldlM (Draft.member shape setField) { given, value := a })
      = fill setField a fields := by
  induction fields generalizing members given a with
  | nil =>
    obtain rfl := List.map_eq_nil_iff.mp hfields
    rfl
  | cons field rest ih =>
    obtain ⟨entry, others, rfl, hentry, hothers⟩ := List.map_eq_cons_iff.mp hfields
    obtain ⟨hfield, hvalue⟩ := Prod.mk.inj hentry
    obtain ⟨hnew, hrest⟩ := List.nodup_cons.mp hnodup
    have hfree : given.contains field.1 = false := by
      rw [← Bool.not_eq_true, List.contains_iff_mem]
      exact hgiven field List.mem_cons_self
    have hmember : Draft.member shape setField { given, value := a } entry
        = (setField a field.1 field.2).map fun value => { given := field.1 :: given, value } := by
      rw [Draft.member, hfield]
      show (if given.contains field.1 then _ else _) = _
      rw [hfree, hvalue]
      rfl
    rw [List.foldlM_cons, hmember, fill, List.foldlM_cons]
    cases setField a field.1 field.2 with
    | error reason => rfl
    | ok value =>
      refine ih hothers hrest fun other hother => ?_
      rw [List.mem_cons, not_or]
      refine ⟨fun heq => hnew (heq ▸ List.mem_map_of_mem hother), ?_⟩
      exact hgiven other (List.mem_cons_of_mem _ hother)

/-- An object whose members stand for different fields is read by setting these. -/
theorem record_object
    (hfields : members.map (fun entry => (shape.field? entry.1, entry.2))
      = fields.map fun entry => (some entry.1, entry.2))
    (hnodup : (fields.map Prod.fst).Nodup) :
    record shape a setField (.object members) = fill setField a fields :=
  foldlM_member hfields hnodup fun _ _ => List.not_mem_nil

/-- An object with some of the fields as its keys, each once, is read by setting these. -/
theorem record_fields (hsub : (members.map Prod.fst).Sublist shape.fields)
    (hnodup : shape.fields.Nodup) :
    record shape a setField (.object members) = fill setField a members := by
  refine record_object (List.map_congr_left fun entry hentry => ?_) (hnodup.sublist hsub)
  have hknown := hsub.subset (List.mem_map_of_mem hentry)
  rw [Shape.field?, if_pos (List.contains_iff_mem.mpr hknown)]

theorem fill_singleton (value : Json) : fill setField a [(key, value)] = setField a key value :=
  bind_pure (setField a key value)

theorem fill_append (h : fill setField a fields = .ok b) (h' : fill setField b fields' = .ok c) :
    fill setField a (fields ++ fields') = .ok c := by
  rw [fill, List.foldlM_append]
  exact (congrArg (· >>= _) h).trans h'

/-! ## Members that may be left out -/

theorem fill_textMember {text : Option String} (hnone : text = none → b = a)
    (hsome : ∀ given, text = some given → setField a key (.text given) = .ok b) :
    fill setField a (textMember key text) = .ok b := by
  cases text with
  | none => exact congrArg Except.ok (hnone rfl).symm
  | some given => exact (fill_singleton _).trans (hsome given rfl)

theorem fill_tableMember {t : Table String} (hempty : t = ∅ → b = a)
    (htable : setField a key (ofTexts t) = .ok b) :
    fill setField a (tableMember key t) = .ok b := by
  rw [tableMember]
  split
  case isTrue h =>
    refine congrArg Except.ok (hempty ?_).symm
    obtain ⟨entries, hsorted⟩ := t
    obtain rfl := List.isEmpty_iff.mp h
    rfl
  case isFalse => exact (fill_singleton _).trans htable

theorem keys_textMember (key : String) (text : Option String) :
    ((textMember key text).map Prod.fst).Sublist [key] := by
  cases text with
  | none => exact List.nil_sublist _
  | some text => exact List.Sublist.refl _

theorem keys_tableMember (key : String) (t : Table String) :
    ((tableMember key t).map Prod.fst).Sublist [key] := by
  rw [tableMember]
  split
  case isTrue => exact List.nil_sublist _
  case isFalse => exact List.Sublist.refl _

/-! ## Composed values -/

/-- A value other than null is read in its own way where null may stand as well. -/
theorem optional_of_ne {read : Reading α} {value : Json} (h : value ≠ .null) :
    Json.optional read value = (read value).map some := by
  cases value with
  | null => exact absurd rfl h
  | bool | int | float | text | array | object => rfl

/-- A list is read from its items when each of them is. -/
theorem list_map {read : Reading α} {write : α → Json} {items : List α}
    (h : ∀ item ∈ items, read (write item) = .ok item) :
    list read (.array (items.map write)) = .ok items :=
  mapM_map_eq_ok h

theorem list_texts (items : List String) : list readText (texts items) = .ok items :=
  list_map fun _ _ => rfl

theorem table_ofTexts (t : Table String) : table readText (ofTexts t) = .ok t := by
  have hentries : (t.entries.map fun entry => (entry.1, text entry.2)).mapM
      (fun entry => do return (entry.1, ← readText entry.2)) = .ok t.entries :=
    mapM_map_eq_ok fun _ _ => rfl
  rw [ofTexts, table, hentries]
  exact congrArg Except.ok t.ofList_entries

end AgentGate.Json
