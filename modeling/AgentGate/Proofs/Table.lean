import AgentGate.Table
import Mathlib.Data.List.Induction
import Mathlib.Data.List.Sort
import Mathlib.Data.String.Basic

/-!
# Tables as finite maps

`Table` keeps its entries sorted, and `Table.get?` is the view that other modules reason about.
Here are the equations that connect the view to what a table lists and to how it is built.

- `Table.get?_eq_some_iff`: the view and the listing hold the same entries.
- `Table.find?_keys_eq_some_iff`: the smallest key with a property.
- `Table.get?_ofList_eq_some_iff`: a table built from entries with distinct keys holds these.
- `Table.get?_ofList_values`: of entries without a value there is none.
- `Table.get?_ofList_filterMap_iff`: so does one whose keys decide their values, if they have any.
- `Table.get?_ofList_filter`, `Table.distinct_filter`: leaving entries out before or after.
- `Table.get?_of_popFirst?`, `Table.le_of_popFirst?`: taking the first entry takes the smallest key
  and leaves the rest of the view as it was.
-/

namespace AgentGate.Table

universe u v

variable {α : Type u} {t rest : Table α} {key : String} {value : α}

/-! ## The view and the listing -/

/-- In a sorted list the first entry with a key is the only one. -/
theorem find_eq_some_iff {l : List (String × α)} (hl : l.Pairwise fun a b => a.1 < b.1) :
    find key l = some value ↔ (key, value) ∈ l := by
  induction l with
  | nil => simp [find]
  | cons head tail ih =>
    obtain ⟨hfirst, htail⟩ := List.pairwise_cons.mp hl
    rw [find, List.mem_cons]
    by_cases hk : key = head.1
    · rw [if_pos hk]
      constructor
      · intro h
        exact .inl (Prod.ext hk (Option.some.inj h).symm)
      · rintro (h | h)
        · rw [← h]
        · exact absurd (hk ▸ hfirst _ h) (String.lt_irrefl _)
    · rw [if_neg hk, ih htail]
      constructor
      · exact .inr
      · rintro (h | h)
        · exact absurd (congrArg Prod.fst h) hk
        · exact h

/-- The view and the listing hold the same entries. -/
theorem get?_eq_some_iff : t.get? key = some value ↔ (key, value) ∈ t.entries :=
  find_eq_some_iff t.sorted

/-- A table has a key when its view has a value there. -/
theorem mem_keys_iff : key ∈ t.keys ↔ ∃ value, t.get? key = some value := by
  simp only [keys, List.mem_map, Prod.exists, exists_and_right, exists_eq_right, get?_eq_some_iff]

theorem contains_iff : t.contains key = true ↔ key ∈ t.keys := by
  rw [contains, Option.isSome_iff_exists, mem_keys_iff]

/-- The values of a table are those of its view. -/
theorem mem_values_iff : value ∈ t.values ↔ ∃ key, t.get? key = some value := by
  simp only [values, List.mem_map, Prod.exists, exists_eq_right, get?_eq_some_iff]

/-- Inserting adds no value but its own. -/
theorem mem_values_insert {other : α} (h : other ∈ (t.insert key value).values) :
    other = value ∨ other ∈ t.values := by
  obtain ⟨entry, hentry, rfl⟩ := List.mem_map.mp h
  rcases mem_place hentry with rfl | hentry
  · exact .inl rfl
  · exact .inr (List.mem_map_of_mem hentry)

/-- Adding an entry whose key may be taken adds no value but its own. -/
theorem mem_values_insertIfNew {other : α} (h : other ∈ (t.insertIfNew key value).values) :
    other = value ∨ other ∈ t.values := by
  rw [insertIfNew] at h
  split at h
  · exact .inr h
  · exact mem_values_insert h

theorem values_mapValues {β : Type v} (f : α → β) : (t.mapValues f).values = t.values.map f := by
  rw [values, values, mapValues, List.map_map, List.map_map]
  rfl

theorem keys_mapValues {β : Type v} (f : α → β) : (t.mapValues f).keys = t.keys := by
  rw [keys, keys, mapValues, List.map_map]
  rfl

/-- A table lists each of its keys once. -/
theorem nodup_keys (t : Table α) : t.keys.Nodup :=
  List.pairwise_map.mpr (t.sorted.imp fun h => ne_of_lt h)

/-- Of the keys with a property the smallest one is found first. -/
theorem find?_keys_eq_some_iff {p : String → Bool} : t.keys.find? p = some key
    ↔ key ∈ t.keys ∧ p key = true ∧ ∀ other ∈ t.keys, p other = true → key ≤ other := by
  have hleast : ∀ {found}, t.keys.find? p = some found →
      found ∈ t.keys ∧ p found = true ∧ ∀ other ∈ t.keys, p other = true → found ≤ other := by
    intro found h
    obtain ⟨hfound, before, after, hkeys, hbefore⟩ := List.find?_eq_some_iff_append.mp h
    refine ⟨List.mem_of_find?_eq_some h, hfound, fun other hother hp => ?_⟩
    have hsorted : t.keys.Pairwise (· < ·) := List.pairwise_map.mpr t.sorted
    rw [hkeys] at hsorted hother
    obtain ⟨-, hafter, -⟩ := List.pairwise_append.mp hsorted
    rcases List.mem_append.mp hother with hother | hother
    · have hskipped := hbefore other hother
      rw [hp] at hskipped
      cases hskipped
    · rcases List.mem_cons.mp hother with rfl | hother
      · exact le_refl _
      · exact le_of_lt ((List.pairwise_cons.mp hafter).1 other hother)
  refine ⟨hleast, fun ⟨hkey, hp, hsmallest⟩ => ?_⟩
  obtain ⟨found, hfound⟩ : ∃ found, t.keys.find? p = some found :=
    Option.isSome_iff_exists.mp (List.find?_isSome.mpr ⟨key, hkey, hp⟩)
  obtain ⟨hmem, hp', hle⟩ := hleast hfound
  rw [hfound, le_antisymm (hle key hkey hp) (hsmallest found hmem hp')]

/-- Of two values at one key the last one counts. -/
theorem insert_insert (t : Table α) (key : String) (first second : α) :
    (t.insert key first).insert key second = t.insert key second := by
  refine ext_get? fun other => ?_
  rw [get?_insert, get?_insert, get?_insert]
  split <;> rfl

/-! ## Tables from entries -/

theorem ofList_concat (entries : List (String × α)) (entry : String × α) :
    ofList (entries ++ [entry]) = (ofList entries).insert entry.1 entry.2 := by
  rw [ofList, List.foldl_append]
  rfl

/-- A table built from entries holds only these. -/
theorem mem_of_get?_ofList {entries : List (String × α)}
    (h : (ofList entries).get? key = some value) : (key, value) ∈ entries := by
  induction entries using List.reverseRecOn with
  | nil => cases h
  | append_singleton entries entry ih =>
    rw [ofList_concat, get?_insert] at h
    by_cases hk : key = entry.1
    · rw [if_pos hk] at h
      rw [hk, ← Option.some.inj h]
      exact List.mem_append_right _ (List.mem_singleton_self _)
    · rw [if_neg hk] at h
      exact List.mem_append_left _ (ih h)

theorem mem_values_ofList {entries : List (String × α)} (h : value ∈ (ofList entries).values) :
    ∃ key, (key, value) ∈ entries := by
  obtain ⟨key, hget⟩ := mem_values_iff.mp h
  exact ⟨key, mem_of_get?_ofList hget⟩

/-- A table built from entries with distinct keys holds exactly these. -/
theorem get?_ofList_eq_some_iff {entries : List (String × α)}
    (hentries : (entries.map Prod.fst).Nodup) :
    (ofList entries).get? key = some value ↔ (key, value) ∈ entries := by
  refine ⟨mem_of_get?_ofList, fun h => ?_⟩
  induction entries using List.reverseRecOn with
  | nil => cases h
  | append_singleton entries entry ih =>
    rw [List.map_append, List.nodup_append] at hentries
    rw [ofList_concat, get?_insert]
    rcases List.mem_append.mp h with h | h
    · have hne : key ≠ entry.1 :=
        hentries.2.2 key (List.mem_map_of_mem h) entry.1 (by simp)
      rw [if_neg hne]
      exact ih hentries.1 h
    · obtain rfl := List.mem_singleton.mp h
      rw [if_pos rfl]

/-- A table is built from what it lists. -/
theorem ofList_entries (t : Table α) : ofList t.entries = t := by
  refine ext_get? fun key => Option.ext fun value => ?_
  rw [get?_ofList_eq_some_iff t.nodup_keys, get?_eq_some_iff]

/-- A table built from entries with distinct keys lists these, in the order of their keys. -/
theorem entries_ofList_perm {entries : List (String × α)}
    (hentries : (entries.map Prod.fst).Nodup) : (ofList entries).entries.Perm entries := by
  have hlisted : (ofList entries).entries.Nodup := (ofList entries).nodup_keys.of_map
  refine (List.perm_ext_iff_of_nodup hlisted hentries.of_map).mpr fun entry => ?_
  rw [← get?_eq_some_iff, get?_ofList_eq_some_iff hentries]

/-- A table built from entries has their keys. -/
theorem mem_keys_ofList {entries : List (String × α)} :
    key ∈ (ofList entries).keys ↔ key ∈ entries.map Prod.fst := by
  rw [mem_keys_iff]
  induction entries using List.reverseRecOn with
  | nil => exact ⟨fun ⟨_, h⟩ => (nomatch h), fun h => (nomatch h)⟩
  | append_singleton entries entry ih =>
    rw [List.map_append, List.mem_append, ← ih, ofList_concat, List.map_singleton,
      List.mem_singleton]
    simp only [get?_insert]
    by_cases hk : key = entry.1
    · exact ⟨fun _ => .inr hk, fun _ => ⟨entry.2, if_pos hk⟩⟩
    · simp only [if_neg hk, or_iff_left hk]

/-- A table built from entries holds the value that all entries of a key have. -/
theorem get?_ofList_of_unique {entries : List (String × α)} (hentry : (key, value) ∈ entries)
    (hunique : ∀ other, (key, other) ∈ entries → other = value) :
    (ofList entries).get? key = some value := by
  obtain ⟨other, hother⟩ :=
    mem_keys_iff.mp (mem_keys_ofList.mpr (List.mem_map_of_mem hentry))
  rw [hother, hunique other (mem_of_get?_ofList hother)]

/-- A table built from the entries that have a value says at a key what all entries of the key do,
also that there is no value. -/
theorem get?_ofList_values {entries : List (String × Option α)} {given : Option α}
    (hentry : (key, given) ∈ entries) (hunique : ∀ other, (key, other) ∈ entries → other = given) :
    (ofList (entries.filterMap fun entry => entry.2.map fun value => (entry.1, value))).get? key
      = given := by
  have hlisted : ∀ value, (key, value) ∈ (entries.filterMap fun entry =>
      entry.2.map fun value => (entry.1, value)) ↔ (key, some value) ∈ entries := by
    intro value
    rw [List.mem_filterMap]
    constructor
    · rintro ⟨⟨name, other⟩, hother, heq⟩
      obtain ⟨_, rfl, heq⟩ := Option.map_eq_some_iff.mp heq
      obtain ⟨rfl, rfl⟩ := Prod.mk.inj heq
      exact hother
    · exact fun h => ⟨_, h, rfl⟩
  cases given with
  | some value =>
    refine get?_ofList_of_unique ((hlisted value).mpr hentry) fun other hother => ?_
    exact Option.some.inj (hunique _ ((hlisted other).mp hother))
  | none =>
    refine Option.eq_none_iff_forall_ne_some.mpr fun value hvalue => ?_
    cases hunique _ ((hlisted value).mp (mem_of_get?_ofList hvalue))

/-- In a table over keys of which each decides whether it has a value and which, the order of the
keys does not matter. -/
theorem get?_ofList_filterMap_iff {keys : List String} {f : String → Option α} :
    (ofList (keys.filterMap fun key => (f key).map fun value => (key, value))).get? key = some value
      ↔ key ∈ keys ∧ f key = some value := by
  have hsound : ∀ {value}, (ofList (keys.filterMap fun key =>
      (f key).map fun value => (key, value))).get? key = some value →
        key ∈ keys ∧ f key = some value := by
    intro value h
    obtain ⟨other, hother, hentry⟩ := List.mem_filterMap.mp (mem_of_get?_ofList h)
    obtain ⟨value, hvalue, heq⟩ := Option.map_eq_some_iff.mp hentry
    obtain ⟨rfl, rfl⟩ := Prod.mk.inj heq
    exact ⟨hother, hvalue⟩
  refine ⟨hsound, ?_⟩
  rintro ⟨hkey, hvalue⟩
  have hentry : (f key).map (fun value => (key, value)) = some (key, value) := by
    rw [hvalue, Option.map_some]
  have hmem : key ∈ (ofList (keys.filterMap fun key =>
      (f key).map fun value => (key, value))).keys :=
    mem_keys_ofList.mpr (List.mem_map.mpr ⟨_, List.mem_filterMap.mpr ⟨key, hkey, hentry⟩, rfl⟩)
  obtain ⟨found, hfound⟩ := mem_keys_iff.mp hmem
  rwa [← hvalue, (hsound hfound).2]

/-- In a table over keys of which each decides its value, the order of the keys does not matter. -/
theorem get?_ofList_map_iff {keys : List String} {f : String → α} :
    (ofList (keys.map fun key => (key, f key))).get? key = some value
      ↔ key ∈ keys ∧ f key = value := by
  have hkeys : (keys.map fun key => (key, f key))
      = keys.filterMap fun key => (some (f key)).map fun value => (key, value) := by
    rw [← List.filterMap_eq_map']
    rfl
  rw [hkeys, get?_ofList_filterMap_iff, Option.some.injEq]

/-- Leaving entries out by their keys leaves out the values at these keys. -/
theorem get?_ofList_filter (p : String → Bool) (entries : List (String × α)) (key : String) :
    (ofList (entries.filter fun entry => p entry.1)).get? key
      = if p key then (ofList entries).get? key else none := by
  induction entries using List.reverseRecOn with
  | nil => exact (ite_self none).symm
  | append_singleton entries entry ih =>
    rw [List.filter_append, ofList_concat, get?_insert, List.filter_singleton]
    by_cases hentry : p entry.1
    · rw [hentry, cond_true, ofList_concat, get?_insert, ih]
      by_cases hk : key = entry.1
      · rw [if_pos hk, if_pos hk, hk, if_pos hentry]
      · rw [if_neg hk, if_neg hk]
    · rw [Bool.not_eq_true] at hentry
      rw [hentry, cond_false, List.append_nil, ih]
      by_cases hk : key = entry.1
      · rw [if_pos hk, hk, hentry]
        rfl
      · rw [if_neg hk]

theorem mem_distinct {texts : List String} : key ∈ distinct texts ↔ key ∈ texts := by
  rw [distinct, mem_keys_ofList, List.map_map]
  simp

/-- Leaving texts out of a list leaves them out of its distinct texts. -/
theorem distinct_filter (p : String → Bool) (texts : List String) :
    distinct (texts.filter p) = (distinct texts).filter p := by
  have hsorted : ∀ texts : List String, (distinct texts).Pairwise (· < ·) := fun texts =>
    List.pairwise_map.mpr (ofList _).sorted
  refine (hsorted _).eq_of_mem_iff ((hsorted texts).filter p) fun text => ?_
  rw [mem_distinct, List.mem_filter, List.mem_filter, mem_distinct]

/-! ## Taking the first entry -/

theorem entries_of_popFirst? {first : String × α} (h : t.popFirst? = some (first, rest)) :
    t.entries = first :: rest.entries := by
  obtain ⟨entries, hsorted⟩ := t
  cases entries with
  | nil => cases h
  | cons head tail =>
    obtain ⟨rfl, rfl⟩ := Prod.mk.inj (Option.some.inj h)
    rfl

/-- Only an empty table has no first entry. -/
theorem get?_eq_none_of_popFirst? (h : t.popFirst? = none) (key : String) :
    t.get? key = none := by
  obtain ⟨entries, hsorted⟩ := t
  cases entries with
  | nil => rfl
  | cons head tail => cases h

/-- The first entry has the smallest key. -/
theorem le_of_popFirst? {first : String × α} (h : t.popFirst? = some (first, rest))
    (hkey : t.get? key = some value) : first.1 ≤ key := by
  have hsorted := t.sorted
  have hmem := get?_eq_some_iff.mp hkey
  rw [entries_of_popFirst? h] at hsorted hmem
  rcases List.mem_cons.mp hmem with hmem | hmem
  · rw [← hmem]
  · exact le_of_lt ((List.pairwise_cons.mp hsorted).1 _ hmem)

/-- Taking the first entry leaves the view as it was at all other keys. -/
theorem get?_of_popFirst? {first : String × α} (h : t.popFirst? = some (first, rest))
    (key : String) : rest.get? key = if key = first.1 then none else t.get? key := by
  have hsorted := t.sorted
  have hentries := entries_of_popFirst? h
  rw [hentries] at hsorted
  show find key rest.entries = if key = first.1 then none else find key t.entries
  rw [hentries, find]
  by_cases hk : key = first.1
  · rw [if_pos hk, hk]
    exact find_eq_none_of_lt (List.pairwise_cons.mp hsorted).1
  · rw [if_neg hk, if_neg hk]

theorem get?_first_of_popFirst? {first : String × α} (h : t.popFirst? = some (first, rest)) :
    t.get? first.1 = some first.2 := by
  rw [get?_eq_some_iff, entries_of_popFirst? h]
  exact List.mem_cons_self

end AgentGate.Table
