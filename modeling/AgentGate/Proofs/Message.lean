import AgentGate.Message
import AgentGate.Proofs.Json.Reader
import AgentGate.Proofs.Result
import AgentGate.Proofs.Table

/-!
# Messages are read from what is written of them

A message has two members of its own, and all others of its object are its fields. Reading deals
the members out one by one, and a draft shows at any time the members that it has taken. A whole
object can be read when each of its keys stands there once and its own members are texts.

- `Message.Proper`: the fields of a message have none of its own keys.
- `Message.Draft.view`: a draft as a map, its own members included.
- `Message.Draft.view_of_foldlM`, `Message.Draft.exists_foldlM`: a draft shows what it has taken,
  and takes everything that can be read.
- `Message.round_trip`: reading after writing, writing after reading, and the type asked for.

A `temporary_id` of null is read as none and not written again, so an object with one does not come
back.
-/

namespace AgentGate.Message

variable {message : Message} {members : List (String × Json)} {entry : String × Json}
  {key kind : String}

/-- No field has a key of the message's own. -/
structure Proper (fields : Table Json) : Prop where
  noType : fields.get? "type" = none
  noTemporaryId : fields.get? "temporary_id" = none

/-- The members of a message in the order in which they are written. -/
def written (message : Message) : List (String × Json) :=
  ("type", .text message.kind)
    :: message.temporaryId.toList.map (fun id => ("temporary_id", .text id))
    ++ message.fields.entries

/-- The draft of a message that has been read to the end. -/
def draft (message : Message) : Draft where
  kind := some message.kind
  temporaryId := message.temporaryId.map some
  fields := message.fields

namespace Draft

variable {draft next : Draft}

/-- A draft as a map from keys to values. -/
def view (draft : Draft) (key : String) : Option Json :=
  if key = "type" then draft.kind.map .text
  else if key = "temporary_id" then draft.temporaryId.map Json.optionalText
  else draft.fields.get? key

/-! ## One member -/

theorem member_type (draft : Draft) (value : Json) : draft.member ("type", value)
    = if draft.kind.isSome then .error (.duplicateField "type")
      else (Json.readText value).map fun kind => { draft with kind := some kind } :=
  rfl

theorem member_temporaryId (draft : Draft) (value : Json) : draft.member ("temporary_id", value)
    = if draft.temporaryId.isSome then .error (.duplicateField "temporary_id")
      else (Json.optional Json.readText value).map fun id =>
        { draft with temporaryId := some id } :=
  rfl

theorem member_field (draft : Draft) (htype : entry.1 ≠ "type") (hid : entry.1 ≠ "temporary_id") :
    draft.member entry = .ok { draft with fields := draft.fields.insert entry.1 entry.2 } := by
  unfold member
  split
  case h_1 heq => exact absurd heq htype
  case h_2 heq => exact absurd heq hid
  case h_3 => rfl

/-- What taking a member does to a draft. -/
theorem member_cases (h : draft.member entry = .ok next) :
    (∃ kind, entry = ("type", .text kind) ∧ next = { draft with kind := some kind })
    ∨ (∃ id, entry = ("temporary_id", Json.optionalText id)
      ∧ next = { draft with temporaryId := some id })
    ∨ (entry.1 ≠ "type" ∧ entry.1 ≠ "temporary_id"
      ∧ next = { draft with fields := draft.fields.insert entry.1 entry.2 }) := by
  obtain ⟨key, value⟩ := entry
  by_cases htype : key = "type"
  · subst htype
    rw [member_type] at h
    split at h
    case isTrue => cases h
    case isFalse =>
      cases value with
      | text kind => exact .inl ⟨kind, rfl, (Except.ok.inj h).symm⟩
      | null | bool | int | float | array | object => cases h
  · by_cases hid : key = "temporary_id"
    · subst hid
      rw [member_temporaryId] at h
      split at h
      case isTrue => cases h
      case isFalse =>
        cases value with
        | null => exact .inr (.inl ⟨none, rfl, (Except.ok.inj h).symm⟩)
        | text id => exact .inr (.inl ⟨some id, rfl, (Except.ok.inj h).symm⟩)
        | bool | int | float | array | object => cases h
    · rw [member_field draft htype hid] at h
      exact .inr (.inr ⟨htype, hid, (Except.ok.inj h).symm⟩)

/-- A draft that takes a member shows it, and otherwise what it showed before. -/
theorem view_of_member (h : draft.member entry = .ok next) (key : String) :
    next.view key = if key = entry.1 then some entry.2 else draft.view key := by
  rcases member_cases h with ⟨kind, rfl, rfl⟩ | ⟨id, rfl, rfl⟩ | ⟨htype, hid, rfl⟩
  · by_cases hkey : key = "type" <;> simp [view, hkey]
  · by_cases hkey : key = "temporary_id" <;> simp [view, hkey]
  · by_cases hkey : key = entry.1
    · simp [view, hkey, htype, hid]
    · simp [view, hkey]

/-- A draft keeps its own members out of its fields. -/
theorem proper_of_member (h : draft.member entry = .ok next) (hproper : Proper draft.fields) :
    Proper next.fields := by
  rcases member_cases h with ⟨_, _, rfl⟩ | ⟨_, _, rfl⟩ | ⟨htype, hid, rfl⟩
  · exact hproper
  · exact hproper
  · constructor
    · rw [Table.get?_insert, if_neg htype.symm, hproper.noType]
    · rw [Table.get?_insert, if_neg hid.symm, hproper.noTemporaryId]

/-- A member that can be read is taken when its key is new. -/
theorem exists_member (hnew : draft.view entry.1 = none)
    (hown : entry.1 = "type" ∨ entry.1 = "temporary_id" → ∃ text, entry.2 = .text text) :
    ∃ next, draft.member entry = .ok next := by
  obtain ⟨key, value⟩ := entry
  by_cases htype : key = "type"
  · subst htype
    obtain ⟨text, rfl⟩ := hown (.inl rfl)
    have hkind : draft.kind = none := Option.map_eq_none_iff.mp hnew
    exact ⟨_, by rw [member_type, hkind]; rfl⟩
  · by_cases hid : key = "temporary_id"
    · subst hid
      obtain ⟨text, rfl⟩ := hown (.inr rfl)
      have hnone : draft.temporaryId = none := Option.map_eq_none_iff.mp hnew
      exact ⟨_, by rw [member_temporaryId, hnone]; rfl⟩
    · exact ⟨_, member_field draft htype hid⟩

/-! ## All members -/

theorem foldlM_concat (draft : Draft) (members : List (String × Json)) (entry : String × Json) :
    (members ++ [entry]).foldlM member draft
      = members.foldlM member draft >>= fun next => next.member entry := by
  rw [List.foldlM_append]
  exact bind_congr fun next => bind_pure (next.member entry)

/-- A draft shows exactly the members that it has taken. -/
theorem view_of_foldlM (h : members.foldlM member {} = .ok draft) (key : String) :
    draft.view key = (Table.ofList members).get? key := by
  -- From the last member on, since a draft says what came before and not what follows.
  induction members using List.reverseRecOn generalizing draft with
  | nil =>
    obtain rfl := Except.ok.inj h
    simp [view, Table.ofList, Table.empty, Table.get?, Table.find]
  | append_singleton members entry ih =>
    rw [foldlM_concat] at h
    obtain ⟨before, hbefore, hentry⟩ := bind_eq_ok_iff.mp h
    rw [view_of_member hentry, ih hbefore, Table.ofList_concat, Table.get?_insert]

theorem proper_of_foldlM (h : members.foldlM member draft = .ok next)
    (hproper : Proper draft.fields) : Proper next.fields := by
  induction members generalizing draft with
  | nil => exact Except.ok.inj h ▸ hproper
  | cons entry rest ih =>
    obtain ⟨second, hsecond, hrest⟩ := bind_eq_ok_iff.mp h
    exact ih hrest (proper_of_member hsecond hproper)

/-- Members with distinct keys are all taken, when those of the message's own are texts. -/
theorem exists_foldlM (hkeys : (members.map Prod.fst).Nodup)
    (hown : ∀ entry ∈ members, entry.1 = "type" ∨ entry.1 = "temporary_id" →
      ∃ text, entry.2 = .text text) :
    ∃ draft, members.foldlM member {} = .ok draft := by
  induction members using List.reverseRecOn with
  | nil => exact ⟨{}, rfl⟩
  | append_singleton members entry ih =>
    rw [List.map_append, List.nodup_append] at hkeys
    obtain ⟨before, hbefore⟩ :=
      ih hkeys.1 fun other hother => hown other (List.mem_append_left _ hother)
    have hnew : before.view entry.1 = none := by
      rw [view_of_foldlM hbefore, Option.eq_none_iff_forall_ne_some]
      intro value hvalue
      have hmem := List.mem_map_of_mem (f := Prod.fst) (Table.mem_of_get?_ofList hvalue)
      exact hkeys.2.2 _ hmem entry.1 (by simp) rfl
    obtain ⟨draft, hdraft⟩ := exists_member hnew (hown entry (by simp))
    exact ⟨draft, by rw [foldlM_concat, hbefore]; exact hdraft⟩

/-- Members that are not of the message's own become its fields. -/
theorem foldlM_fields (h : ∀ entry ∈ members, entry.1 ≠ "type" ∧ entry.1 ≠ "temporary_id") :
    members.foldlM member draft = .ok { draft with
      fields := members.foldl (fun t entry => t.insert entry.1 entry.2) draft.fields } := by
  induction members generalizing draft with
  | nil => rfl
  | cons entry rest ih =>
    obtain ⟨⟨htype, hid⟩, hrest⟩ := List.forall_mem_cons.mp h
    rw [List.foldlM_cons, member_field draft htype hid]
    exact ih hrest

end Draft

/-! ## Reading after writing -/

theorem toJson_eq (message : Message) : message.toJson = .object message.written :=
  rfl

theorem Proper.ne_of_mem {fields : Table Json} (h : Proper fields)
    (hentry : entry ∈ fields.entries) : entry.1 ≠ "type" ∧ entry.1 ≠ "temporary_id" := by
  have hget : fields.get? entry.1 = some entry.2 := Table.get?_eq_some_iff.mpr hentry
  constructor
  · intro htype
    rw [htype, h.noType] at hget
    cases hget
  · intro hid
    rw [hid, h.noTemporaryId] at hget
    cases hget

/-- What is written of a message makes it up again. -/
theorem foldlM_written (h : Proper message.fields) :
    message.written.foldlM Draft.member {} = .ok message.draft := by
  have hfields (draft : Draft) (hempty : draft.fields = ∅) :
      message.fields.entries.foldlM Draft.member draft
        = .ok { draft with fields := message.fields } := by
    rw [Draft.foldlM_fields fun _ => h.ne_of_mem, hempty]
    exact congrArg (fun fields => Except.ok { draft with fields }) message.fields.ofList_entries
  obtain ⟨kind, temporaryId, fields⟩ := message
  cases temporaryId with
  | none => exact hfields { kind := some kind } rfl
  | some id => exact hfields { kind := some kind, temporaryId := some (some id) } rfl

theorem ofJson_of_foldlM (h : members.foldlM Draft.member {} = .ok message.draft) :
    ofJson (.object members) = .ok message := by
  rw [ofJson, h]
  obtain ⟨kind, temporaryId, fields⟩ := message
  cases temporaryId <;> rfl

/-- Whatever a message is read from, its fields have none of its own keys. -/
theorem proper_of_ofJson {value : Json} (h : ofJson value = .ok message) :
    Proper message.fields := by
  cases value with
  | null | bool | int | float | text | array => cases h
  | object members =>
    obtain ⟨draft, hdraft, hmessage⟩ := bind_eq_ok_iff.mp h
    cases hkind : draft.kind with
    | none =>
      rw [hkind] at hmessage
      cases hmessage
    | some kind =>
      rw [hkind] at hmessage
      obtain rfl := Except.ok.inj hmessage
      exact Draft.proper_of_foldlM hdraft ⟨rfl, rfl⟩

/-- A message comes back from what is written of it unless a field has one of its own keys. -/
theorem ofJson_toJson_iff : ofJson message.toJson = .ok message ↔ Proper message.fields :=
  ⟨proper_of_ofJson, fun h => ofJson_of_foldlM (foldlM_written h)⟩

/-- The text of a message is read as what was written, where its fields hold integers of 64 bits and
no other numbers. -/
theorem ofText?_toJson (h : ∀ entry ∈ message.fields.entries, entry.2.Exact) :
    Json.ofText? message.toJson.compact = some message.toJson := by
  refine Json.ofText?_compact (.object fun entry hentry => ?_)
  rcases List.mem_append.mp hentry with hown | hfield
  · rcases List.mem_cons.mp hown with rfl | hid
    · exact .text message.kind
    · obtain ⟨id, -, rfl⟩ := List.mem_map.mp hid
      exact .text id
  · exact h entry hfield

/-! ## Writing after reading -/

theorem nodup_written (h : Proper message.fields) : (message.written.map Prod.fst).Nodup := by
  have htype : "type" ∉ message.fields.keys := by simp [Table.mem_keys_iff, h.noType]
  have hid : "temporary_id" ∉ message.fields.keys := by
    simp [Table.mem_keys_iff, h.noTemporaryId]
  have hkeys : message.written.map Prod.fst
      = "type" :: message.temporaryId.toList.map (fun _ => "temporary_id")
        ++ message.fields.keys := by
    simp [written, Table.keys, Function.comp_def]
  rw [hkeys]
  cases message.temporaryId <;> simp [htype, hid, message.fields.nodup_keys]

/-- A draft with a type is that of a message, unless it has null as its temporary identifier. -/
theorem Draft.exists_eq_draft {draft : Draft} (hkind : draft.kind.map Json.text = some (.text kind))
    (hnotnull : draft.temporaryId.map Json.optionalText ≠ some .null) :
    ∃ message : Message, draft = message.draft := by
  obtain ⟨draftKind, draftId, fields⟩ := draft
  cases draftKind with
  | none => cases hkind
  | some given =>
    cases draftId with
    | none => exact ⟨{ kind := given, fields }, rfl⟩
    | some id =>
      cases id with
      | none => exact absurd rfl hnotnull
      | some id => exact ⟨{ kind := given, temporaryId := some id, fields }, rfl⟩

/-- An object with a text as its type, and none or a text as its temporary identifier, is read as a
message of which the same members are written. -/
theorem exists_ofJson (hkeys : (members.map Prod.fst).Nodup)
    (htype : ("type", .text kind) ∈ members)
    (hid : ∀ value, ("temporary_id", value) ∈ members → ∃ id, value = .text id) :
    ∃ message, ofJson (.object members) = .ok message ∧ message.written.Perm members := by
  have hown : ∀ entry ∈ members, entry.1 = "type" ∨ entry.1 = "temporary_id" →
      ∃ text, entry.2 = .text text := by
    rintro ⟨key, value⟩ hmem (rfl | rfl)
    · have hentry := List.inj_on_of_nodup_map hkeys hmem htype rfl
      exact ⟨kind, congrArg Prod.snd hentry⟩
    · exact hid value hmem
  obtain ⟨draft, hdraft⟩ := Draft.exists_foldlM hkeys hown
  have hview (key : String) : draft.view key = (Table.ofList members).get? key :=
    Draft.view_of_foldlM hdraft key
  have hkind : draft.kind.map Json.text = some (.text kind) :=
    (hview "type").trans ((Table.get?_ofList_eq_some_iff hkeys).mpr htype)
  have hnotnull : draft.temporaryId.map Json.optionalText ≠ some .null := by
    intro hnull
    obtain ⟨id, hvalue⟩ := hid .null (Table.mem_of_get?_ofList ((hview _).symm.trans hnull))
    cases hvalue
  obtain ⟨message, rfl⟩ := Draft.exists_eq_draft hkind hnotnull
  have hread : ofJson (.object members) = .ok message := ofJson_of_foldlM hdraft
  have hproper : Proper message.fields := proper_of_ofJson hread
  -- What is written of the message makes up the same draft, and so shows the same members.
  have htable : Table.ofList message.written = Table.ofList members := by
    refine Table.ext_get? fun key => ?_
    rw [← hview key, Draft.view_of_foldlM (foldlM_written hproper)]
  have hwritten := Table.entries_ofList_perm (nodup_written hproper)
  rw [htable] at hwritten
  exact ⟨message, hread, hwritten.symm.trans (Table.entries_ofList_perm hkeys)⟩

/-! ## The type asked for -/

theorem eq_underscored_iff {name : String} : name = underscored kind
    ↔ name.toList = kind.toList.map fun c => if c = '-' then '_' else c := by
  rw [underscored, ← String.toList_inj, String.toList_ofList]

theorem outputType_eq_ok_iff {type : OutputType} :
    message.outputType = .ok type ↔ type.name = underscored message.kind := by
  rw [outputType]
  constructor
  · intro h
    split at h
    case h_1 found hfound =>
      obtain rfl := Except.ok.inj h
      simpa using List.find?_some hfound
    case h_2 => cases h
  · intro h
    rw [← h, OutputType.ofName?_name]

theorem outputType_of_unknown
    (h : ∀ type : OutputType, type.name ≠ underscored message.kind) :
    message.outputType = .error (.unknownJobType message.kind) := by
  have hnone : OutputType.ofName? (underscored message.kind) = none :=
    List.find?_eq_none.mpr fun type _ => by simpa using h type
  rw [outputType, hnone]

/-! ## The round trip -/

/-- **Messages are read from what is written of them, and written as they were read.** A message
comes back from its object, and from the text of that, exactly when no field has one of its own
keys. An object with a text as its type, and none or a text as its temporary identifier, is read as
a message of which the same members are written: none is lost, renamed or written twice. The type
that a message asks for is the one whose name its kind is with underscores in place of hyphens; when
there is none, the error has the kind as it was spelled. -/
theorem round_trip :
    (∀ message : Message, ofJson message.toJson = .ok message
      ↔ message.fields.get? "type" = none ∧ message.fields.get? "temporary_id" = none)
    ∧ (∀ message : Message, (∀ entry ∈ message.fields.entries, entry.2.Exact) →
      Json.ofText? message.toJson.compact = some message.toJson)
    ∧ (∀ (members : List (String × Json)) (kind : String), (members.map Prod.fst).Nodup →
      ("type", .text kind) ∈ members →
      (∀ value, ("temporary_id", value) ∈ members → ∃ id, value = .text id) →
      ∃ (message : Message) (members' : List (String × Json)),
        ofJson (.object members) = .ok message
        ∧ message.toJson = .object members' ∧ members'.Perm members)
    ∧ (∀ (message : Message) (type : OutputType), message.outputType = .ok type
      ↔ type.name.toList = message.kind.toList.map fun c => if c = '-' then '_' else c)
    ∧ ∀ message : Message,
      (∀ type : OutputType,
        type.name.toList ≠ message.kind.toList.map fun c => if c = '-' then '_' else c) →
      message.outputType = .error (.unknownJobType message.kind) := by
  refine ⟨fun message => ?reading, fun message hexact => ofText?_toJson hexact,
    fun members kind hkeys htype hid => ?writing, fun message type => ?type,
    fun message hunknown => ?unknown⟩
  case reading =>
    exact ofJson_toJson_iff.trans ⟨fun h => ⟨h.noType, h.noTemporaryId⟩, fun h => ⟨h.1, h.2⟩⟩
  case writing =>
    obtain ⟨message, hread, hperm⟩ := exists_ofJson hkeys htype hid
    exact ⟨message, message.written, hread, toJson_eq message, hperm⟩
  case type => exact outputType_eq_ok_iff.trans eq_underscored_iff
  case unknown =>
    exact outputType_of_unknown fun type htype => hunknown type (eq_underscored_iff.mp htype)

/-- The members of a message, in no order of their own; a key of the message's own stands in one of
its fields. -/
def flakyMembers : List (String × Json) :=
  [("title", .text "Flaky test"), ("temporary_id", .text "aw_1a2b3c"),
    ("meta", .object [("type", .null), ("runs", .array [.int 3, .bool true])]),
    ("type", .text "create-issue"), ("labels", .array [])]

theorem flaky_round_trip :
    (flakyMembers.map Prod.fst).Nodup ∧ ("type", .text "create-issue") ∈ flakyMembers
    ∧ (∀ value, ("temporary_id", value) ∈ flakyMembers → ∃ id, value = .text id)
    ∧ ∃ (message : Message) (members' : List (String × Json)),
      ofJson (.object flakyMembers) = .ok message
      ∧ message.toJson = .object members' ∧ members'.Perm flakyMembers
      ∧ ofJson message.toJson = .ok message ∧ message.outputType = .ok .createIssue := by
  have hkeys : (flakyMembers.map Prod.fst).Nodup := by decide
  have htype : ("type", .text "create-issue") ∈ flakyMembers := by simp [flakyMembers]
  have hid : ∀ value, ("temporary_id", value) ∈ flakyMembers → ∃ id, value = .text id := by
    intro value hvalue
    exact ⟨"aw_1a2b3c", by simpa [flakyMembers] using hvalue⟩
  obtain ⟨message, members', hread, hwritten, hperm⟩ :=
    round_trip.2.2.1 flakyMembers "create-issue" hkeys htype hid
  have hproper := proper_of_ofJson hread
  refine ⟨hkeys, htype, hid, message, members', hread, hwritten, hperm,
    (round_trip.1 message).mpr ⟨hproper.noType, hproper.noTemporaryId⟩,
    (round_trip.2.2.2.1 message .createIssue).mpr ?_⟩
  obtain rfl := Except.ok.inj hread
  decide

end AgentGate.Message
