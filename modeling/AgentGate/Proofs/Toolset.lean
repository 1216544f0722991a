import AgentGate.Permission.Audit
import AgentGate.Proofs.Json.Reading
import AgentGate.Proofs.Text.Blank
import AgentGate.Proofs.Text.Pieces
import AgentGate.Workflow.Reading
import Mathlib

/-!
# Written lists of toolsets

A list of toolsets is written as one text with commas, or as a list of such texts. Blanks around a
name do not count, and neither do blank names. An audit sees of a list only the names that are left,
so it does not matter who takes the list apart and cleans it, nor how often.

- `Toolset.names`: the names that a list of texts holds.
- `Permissions.audit_congr`: an audit depends on these names alone.
- `readNames_text`, `readNames_texts`: what is read of a list in either way.
-/

namespace AgentGate

/-! ## Names in a list -/

namespace Toolset

/-- The names that a list of texts holds: without blanks around them, and none that is blank. -/
def names (texts : List String) : List String :=
  (texts.map Text.trim).filter fun name => name ≠ ""

variable {texts : List String} {name : String}

theorem mem_names_iff :
    name ∈ names texts ↔ (∃ text ∈ texts, Text.trim text = name) ∧ name ≠ "" := by
  rw [names, List.mem_filter, List.mem_map, decide_eq_true_iff]

theorem names_cons (text : String) (texts : List String) : names (text :: texts)
    = (if Text.trim text = "" then [] else [Text.trim text]) ++ names texts := by
  rw [names, List.map_cons, List.filter_cons, ← names]
  split <;> rename_i h
  · rw [if_neg (of_decide_eq_true h)]; rfl
  · rw [if_pos (by simpa using h)]; rfl

/-- Names are found in a list of them as they are. -/
theorem names_names (texts : List String) : names (names texts) = names texts := by
  have htrimmed : (names texts).map Text.trim = names texts := by
    refine (List.map_congr_left fun name hname => ?_).trans (List.map_id _)
    obtain ⟨⟨text, -, rfl⟩, -⟩ := mem_names_iff.mp hname
    exact Text.trim_trim text
  rw [names, htrimmed, names, List.filter_filter]
  simp only [Bool.and_self]

theorem names_pieces_intercalate (items : List String) :
    names (Text.pieces ',' (",".intercalate items)) = names (items.flatMap (Text.pieces ',')) := by
  cases items with
  | nil => decide
  | cons item rest =>
    rw [Text.pieces_intercalate (c := ',') String.toList_ofList (List.cons_ne_nil _ _)]

/-! ### What an audit looks at -/

theorem all_allBlank (texts : List String) : texts.all Text.allBlank = (names texts).isEmpty := by
  rw [Bool.eq_iff_iff, List.all_eq_true, List.isEmpty_iff, names, List.filter_eq_nil_iff,
    List.forall_mem_map]
  simp only [← Text.trim_eq_empty_iff, decide_eq_true_iff, not_not]

theorem any_trim_eq (texts : List String) :
    texts.any (fun text => Text.trim text = "all") = (names texts).contains "all" := by
  rw [Bool.eq_iff_iff, List.contains_iff_mem, mem_names_iff, List.any_eq_true,
    and_iff_left (by decide)]
  simp only [decide_eq_true_iff]

theorem expandEntry_of_trim_eq_empty {text : String} (h : Text.trim text = "") :
    expandEntry text = [] := by
  rw [expandEntry, if_pos h]

theorem expandEntry_trim (text : String) : expandEntry (Text.trim text) = expandEntry text := by
  rw [expandEntry, Text.trim_trim, ← expandEntry]

theorem expand_names (texts : List String) : expand (names texts) = expand texts := by
  rw [expand, expand]
  congr 1
  induction texts with
  | nil => rfl
  | cons text texts ih =>
    rw [names_cons, List.flatMap_append, ih, List.flatMap_cons]
    split
    case isTrue h => rw [expandEntry_of_trim_eq_empty h]; rfl
    case isFalse => rw [List.flatMap_singleton, expandEntry_trim]

end Toolset

/-- An audit sees of a list of toolsets only the names in it. -/
theorem Permissions.audit_congr {texts texts' : List String}
    (h : Toolset.names texts = Toolset.names texts') (granted : Permissions) (readOnly : Bool) :
    granted.audit texts readOnly = granted.audit texts' readOnly := by
  have hexpand : Toolset.expand texts = Toolset.expand texts' := by
    rw [← Toolset.expand_names, h, Toolset.expand_names]
  rw [audit, audit, Toolset.all_allBlank, Toolset.all_allBlank, Toolset.any_trim_eq,
    Toolset.any_trim_eq, h, hexpand]

/-! ## Reading a list -/

theorem readNames_text (text : String) :
    readNames (.text text) = .ok (Toolset.names (Text.pieces ',' text)) := by
  change Except.ok (Toolset.names (([text]).flatMap (Text.pieces ','))) = _
  rw [List.flatMap_singleton]

theorem readNames_texts (items : List String) :
    readNames (Json.texts items) = .ok (Toolset.names (items.flatMap (Text.pieces ','))) := by
  have hitems : readOneOrMany (Json.texts items) = .ok items := by
    rw [readOneOrMany, Json.choice, Json.list_texts]
    rfl
  rw [readNames, hitems]
  rfl

end AgentGate
