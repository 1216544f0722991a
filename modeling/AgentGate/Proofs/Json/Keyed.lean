import AgentGate.Proofs.Table
import AgentGate.Toml.Tree

/-!
# Objects with distinct keys

Where a document is kept as a value, every object in it has each of its keys once. So it is for the
JSON of a TOML document, whose objects are in the order of their keys.

- `Json.Keyed`: such values.
- `Json.keyed_sorted`, `Toml.keyed_of_jsonOfText?`: how they come about.
- `Json.keys`, `Json.values`, `Json.under`: what stands in an object, and under which keys.
-/

namespace AgentGate

namespace Json

/-- In every object within the value each key stands once. -/
inductive Keyed : Json → Prop where
  | null : Keyed .null
  | bool (b : Bool) : Keyed (.bool b)
  | int (n : Int) : Keyed (.int n)
  | float (x : Binary64) : Keyed (.float x)
  | text (s : String) : Keyed (.text s)
  | array {items : List Json} (h : ∀ item ∈ items, Keyed item) : Keyed (.array items)
  | object {members : List (String × Json)} (hkeys : (members.map Prod.fst).Nodup)
    (h : ∀ entry ∈ members, Keyed entry.2) : Keyed (.object members)

/-! ## Sorted values -/

mutual

theorem keyed_sorted (value : Json) : value.sorted.Keyed := by
  cases value with
  | null => exact .null
  | bool b => exact .bool b
  | int n => exact .int n
  | float x => exact .float x
  | text s => exact .text s
  | array items =>
    rw [sorted]
    exact .array (keyed_sortedItems items)
  | object members =>
    rw [sorted]
    refine .object (Table.ofList (sortedMembers members)).nodup_keys fun entry hentry => ?_
    have hmem : (entry.1, entry.2) ∈ sortedMembers members :=
      Table.mem_of_get?_ofList (Table.get?_eq_some_iff.mpr hentry)
    exact keyed_sortedMembers members _ hmem

theorem keyed_sortedItems (items : List Json) : ∀ item ∈ sortedItems items, item.Keyed := by
  cases items with
  | nil => nofun
  | cons item rest =>
    rw [sortedItems]
    exact List.forall_mem_cons.mpr ⟨keyed_sorted item, keyed_sortedItems rest⟩

theorem keyed_sortedMembers (members : List (String × Json)) :
    ∀ entry ∈ sortedMembers members, entry.2.Keyed := by
  cases members with
  | nil => nofun
  | cons entry rest =>
    obtain ⟨key, value⟩ := entry
    rw [sortedMembers]
    exact List.forall_mem_cons.mpr ⟨keyed_sorted value, keyed_sortedMembers rest⟩

end

/-! ## What stands in an object -/

/-- The members of an object; another value has none. -/
def members : Json → List (String × Json)
  | .object members => members
  | _ => []

/-- The keys of an object. -/
def keys (value : Json) : List String :=
  value.members.map Prod.fst

/-- The values of the members of an object. -/
def values (value : Json) : List Json :=
  value.members.map Prod.snd

/-- The values of the members of an object that have one of some keys. -/
def under (keys : List String) (value : Json) : List Json :=
  (value.members.filter fun entry => keys.contains entry.1).map Prod.snd

theorem forall_mem_under {keys : List String} {value : Json} {p : Json → Prop} :
    (∀ item ∈ value.under keys, p item)
      ↔ ∀ entry ∈ value.members, entry.1 ∈ keys → p entry.2 := by
  simp only [under, List.forall_mem_map, List.mem_filter, List.contains_iff_mem, and_imp]

end Json

/-- The JSON of a TOML document has each key of an object once. -/
theorem Toml.keyed_of_jsonOfText? {fits : Int → Bool} {text : String} {value : Json}
    (h : Toml.jsonOfText? fits text = some value) : value.Keyed := by
  simp only [Toml.jsonOfText?, Option.bind_eq_bind, Option.bind_eq_some_iff] at h
  obtain ⟨_, _, _, _, h⟩ := h
  obtain rfl := Option.some.inj h
  exact Json.keyed_sorted _

end AgentGate
