/-!
# Tables

A table maps texts to values and keeps its entries sorted by key. Keys are compared by code point,
which is also the order of their UTF-8 bytes, and every key occurs once. Since the order is part of
the type, two tables with the same entries are equal, and a listing of a table needs no sorting.

- `Table.get?`, `Table.insert`: the view of a table as a map, and the one way to extend it.
- `Table.ofList`: entries inserted from left to right, so that the last of two equal keys counts.
- `Table.get?_insert`: inserting changes the value at one key and nowhere else.
- `Table.ext_get?`: tables with the same view are the same table.
-/

namespace AgentGate

universe u v

/-- Entries by key, in ascending order of keys and each key once. -/
structure Table (α : Type u) where
  entries : List (String × α)
  sorted : entries.Pairwise fun a b => a.1 < b.1

namespace Table

variable {α : Type u} {β : Type v}

instance [DecidableEq α] : DecidableEq (Table α) := fun s t =>
  decidable_of_iff (s.entries = t.entries) <| by
    cases s; cases t; simp

/-- The table without entries. -/
def empty : Table α := ⟨[], .nil⟩

instance : EmptyCollection (Table α) := ⟨empty⟩
instance : Inhabited (Table α) := ⟨empty⟩

/-- Place an entry in a sorted list, in the stead of one with the same key. -/
def place (key : String) (value : α) : List (String × α) → List (String × α)
  | [] => [(key, value)]
  | entry :: rest =>
    if key < entry.1 then (key, value) :: entry :: rest
    else if key = entry.1 then (key, value) :: rest
    else entry :: place key value rest

/-- Placing an entry adds no key but its own. -/
theorem mem_place {key : String} {value : α} {entry : String × α} {l : List (String × α)}
    (h : entry ∈ place key value l) : entry = (key, value) ∨ entry ∈ l := by
  induction l with
  | nil => exact .inl (by simpa [place] using h)
  | cons head rest ih =>
    unfold place at h
    split at h
    · rcases List.mem_cons.1 h with h | h
      · exact .inl h
      · exact .inr h
    · split at h
      · rcases List.mem_cons.1 h with h | h
        · exact .inl h
        · exact .inr (List.mem_cons_of_mem _ h)
      · rcases List.mem_cons.1 h with h | h
        · exact .inr (h ▸ List.mem_cons_self)
        · exact (ih h).imp_right (List.mem_cons_of_mem _)

/-- Of two keys that are neither smaller nor equal, the second is smaller. -/
theorem lt_of_not_lt_of_ne {a b : String} (less : ¬ a < b) (ne : ¬ a = b) : b < a := by
  have le : b ≤ a := Decidable.byContradiction fun h => less (String.not_le.1 h)
  exact Decidable.byContradiction fun h => ne (String.le_antisymm (String.not_lt.1 h) le)

/-- Placing an entry keeps the order. -/
theorem sorted_place (key : String) (value : α) {l : List (String × α)}
    (h : l.Pairwise fun a b => a.1 < b.1) :
    (place key value l).Pairwise fun a b => a.1 < b.1 := by
  induction l with
  | nil => simp [place]
  | cons head rest ih =>
    have ⟨first, tail⟩ := List.pairwise_cons.1 h
    unfold place
    split
    case isTrue less =>
      refine List.pairwise_cons.2 ⟨fun entry mem => ?_, h⟩
      rcases List.mem_cons.1 mem with rfl | mem
      · exact less
      · exact String.lt_trans less (first entry mem)
    case isFalse less =>
      split
      case isTrue eq => exact List.pairwise_cons.2 ⟨fun entry mem => eq ▸ first entry mem, tail⟩
      case isFalse ne =>
        refine List.pairwise_cons.2 ⟨fun entry mem => ?_, ih tail⟩
        rcases mem_place mem with rfl | mem
        · exact lt_of_not_lt_of_ne less ne
        · exact first entry mem

/-- The table with one entry added or exchanged. -/
def insert (t : Table α) (key : String) (value : α) : Table α :=
  ⟨place key value t.entries, sorted_place key value t.sorted⟩

/-- The value of the first entry with a key. -/
def find (key : String) : List (String × α) → Option α
  | [] => none
  | entry :: rest => if key = entry.1 then some entry.2 else find key rest

/-- The value at a key. -/
def get? (t : Table α) (key : String) : Option α :=
  find key t.entries

/-- Whether a key has a value. -/
def contains (t : Table α) (key : String) : Bool :=
  (t.get? key).isSome

/-- The table with an entry added unless its key is taken. -/
def insertIfNew (t : Table α) (key : String) (value : α) : Table α :=
  if t.contains key then t else t.insert key value

/-- The keys, ascending. -/
def keys (t : Table α) : List String :=
  t.entries.map Prod.fst

/-- The values, in the order of their keys. -/
def values (t : Table α) : List α :=
  t.entries.map Prod.snd

/-- Whether the table has no entries. -/
def isEmpty (t : Table α) : Bool :=
  t.entries.isEmpty

/-- The entry with the smallest key, and the table without it. -/
def popFirst? (t : Table α) : Option ((String × α) × Table α) :=
  match t with
  | ⟨[], _⟩ => none
  | ⟨first :: rest, sorted⟩ => some (first, ⟨rest, (List.pairwise_cons.1 sorted).2⟩)

/-- Insert entries from left to right; the last of two equal keys counts. -/
def ofList (entries : List (String × α)) : Table α :=
  entries.foldl (fun t entry => t.insert entry.1 entry.2) empty

/-- The distinct texts of a list, ascending. -/
def distinct (texts : List String) : List String :=
  (ofList (texts.map fun text => (text, ()))).keys

/-- Replace every value, keeping the keys. -/
def mapValues (f : α → β) (t : Table α) : Table β :=
  ⟨t.entries.map fun entry => (entry.1, f entry.2),
    List.pairwise_map.2 (t.sorted.imp fun h => h)⟩

/-! ## The view as a map -/

@[simp] theorem entries_empty : (∅ : Table α).entries = [] := rfl

@[simp] theorem get?_empty (key : String) : (∅ : Table α).get? key = none := rfl

theorem find_place (key : String) (value : α) (other : String) (l : List (String × α)) :
    find other (place key value l) = if other = key then some value else find other l := by
  induction l with
  | nil => rfl
  | cons head rest ih =>
    unfold place
    split
    case isTrue => rfl
    case isFalse =>
      split
      case isTrue eq => subst eq; by_cases h : other = head.1 <;> simp [find, h]
      case isFalse ne =>
        by_cases h : other = head.1
        · have ne' : ¬ head.1 = key := fun eq => ne eq.symm
          simp [find, h, ne']
        · simp [find, h, ih]

/-- Inserting changes the value at its key and nowhere else. -/
@[simp] theorem get?_insert (t : Table α) (key : String) (value : α) (other : String) :
    (t.insert key value).get? other = if other = key then some value else t.get? other :=
  find_place key value other t.entries

/-- A key smaller than all of a list's has no value there. -/
theorem find_eq_none_of_lt {key : String} {l : List (String × α)}
    (h : ∀ entry ∈ l, key < entry.1) : find key l = none := by
  induction l with
  | nil => rfl
  | cons head rest ih =>
    have ne : ¬ key = head.1 := fun eq =>
      String.lt_irrefl head.1 (eq ▸ h head List.mem_cons_self : head.1 < head.1)
    rw [find, if_neg ne, ih fun entry mem => h entry (List.mem_cons_of_mem _ mem)]

/-- A key smaller than the first of a sorted list has no value there. -/
theorem find_cons_eq_none_of_lt {key : String} {head : String × α} {rest : List (String × α)}
    (less : key < head.1) (first : ∀ entry ∈ rest, head.1 < entry.1) :
    find key (head :: rest) = none :=
  find_eq_none_of_lt fun entry mem => by
    rcases List.mem_cons.1 mem with rfl | mem
    · exact less
    · exact String.lt_trans less (first entry mem)

/-- Two sorted lists with the same view are the same list. -/
theorem entries_ext {l₁ l₂ : List (String × α)}
    (h₁ : l₁.Pairwise fun a b => a.1 < b.1) (h₂ : l₂.Pairwise fun a b => a.1 < b.1)
    (same : ∀ key, find key l₁ = find key l₂) : l₁ = l₂ := by
  induction l₁ generalizing l₂ with
  | nil =>
    cases l₂ with
    | nil => rfl
    | cons head rest => simpa [find] using same head.1
  | cons head₁ rest₁ ih =>
    cases l₂ with
    | nil => simpa [find] using same head₁.1
    | cons head₂ rest₂ =>
      have ⟨first₁, tail₁⟩ := List.pairwise_cons.1 h₁
      have ⟨first₂, tail₂⟩ := List.pairwise_cons.1 h₂
      have keysEq : head₁.1 = head₂.1 := by
        apply Decidable.byContradiction
        intro ne
        by_cases less : head₁.1 < head₂.1
        · have found := same head₁.1
          rw [find_cons_eq_none_of_lt less first₂] at found
          simp [find] at found
        · have found := same head₂.1
          rw [find_cons_eq_none_of_lt (lt_of_not_lt_of_ne less ne) first₁] at found
          simp [find] at found
      have valuesEq : head₁.2 = head₂.2 := by
        have found := same head₁.1
        rw [find, if_pos rfl, find, if_pos keysEq] at found
        exact Option.some.inj found
      have restEq : rest₁ = rest₂ := by
        refine ih tail₁ tail₂ fun key => ?_
        by_cases eq : key = head₁.1
        · rw [eq, find_eq_none_of_lt first₁, keysEq, find_eq_none_of_lt first₂]
        · have found := same key
          rwa [find, if_neg eq, find, if_neg (keysEq ▸ eq)] at found
      rw [restEq, Prod.ext keysEq valuesEq]

/-- Tables with the same view are equal. -/
theorem ext_get? {s t : Table α} (same : ∀ key, s.get? key = t.get? key) : s = t := by
  have eq := entries_ext s.sorted t.sorted same
  cases s; cases t
  simpa using eq

end Table

end AgentGate
