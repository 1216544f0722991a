import AgentGate.Proofs.Text
import AgentGate.Proofs.Text.Pieces

/-!
# Words in a text

A word occurs in a text that is put together from parts only if it occurs in a part or across the
place where two of them meet. It does not reach across a character that is not in it, and there are
only so many ways to cut it in two.

- `Text.Mentions`: the word occurs in the text, letter by letter.
- `Text.Mentions.mem`: a text has every character of a word in it.
- `Text.exists_of_mentions_listing`: words in a list that is joined by commas.
- `Text.not_mentions_append`: words in a text with another behind it.
- `mem_slug`, `Workflow.id_cases`: the characters in the identifier of a workflow.
-/

namespace AgentGate

namespace Text

/-- The word occurs in the text. -/
def Mentions (word text : String) : Prop :=
  word.toList <:+: text.toList

/-- Whether some characters occur among others: whether they start at one of them. -/
def occursIn (word : List Char) : List Char → Bool
  | [] => word.isEmpty
  | c :: cs => word.isPrefixOf (c :: cs) || occursIn word cs

theorem occursIn_iff {word cs : List Char} : occursIn word cs = true ↔ word <:+: cs := by
  induction cs with
  | nil => rw [occursIn, List.isEmpty_iff, List.infix_nil]
  | cons c cs ih =>
    rw [occursIn, Bool.or_eq_true, List.isPrefixOf_iff_prefix, ih, List.infix_cons_iff]

instance : DecidableRel Mentions := fun _ _ =>
  decidable_of_iff _ occursIn_iff

variable {word other text first second : String} {c : Char}

theorem Mentions.trans (h : Mentions word other) (h' : Mentions other text) : Mentions word text :=
  List.IsInfix.trans h h'

/-- A text has every character of a word in it. -/
theorem Mentions.mem (h : Mentions word text) (hc : c ∈ word.toList) : c ∈ text.toList :=
  h.subset hc

/-- A word without a comma is mentioned in a list only if it is in one of the items. -/
theorem exists_of_mentions_listing {items : List String} (hcomma : ',' ∉ word.toList)
    (hempty : word ≠ "") (h : Mentions word (",".intercalate items)) :
    ∃ item ∈ items, Mentions word item := by
  have hword : ¬word.toList <:+: [] := fun hnil =>
    hempty (String.toList_eq_nil_iff.mp (List.infix_nil.mp hnil))
  have hjoined : ∀ items : List String, word.toList <:+: [','].intercalate (items.map String.toList) →
      ∃ item ∈ items, Mentions word item := by
    intro items h
    induction items with
    | nil => exact absurd h hword
    | cons item rest ih =>
      cases rest with
      | nil =>
        rw [List.map_singleton, List.intercalate_singleton] at h
        exact ⟨item, List.mem_cons_self, h⟩
      | cons next rest =>
        rw [List.map_cons, List.map_cons, List.intercalate_cons_cons, List.append_assoc,
          List.singleton_append, infix_append_cons_iff hcomma] at h
        rcases h with h | h
        · exact ⟨item, List.mem_cons_self, h⟩
        · obtain ⟨found, hfound, h⟩ := ih h
          exact ⟨found, List.mem_cons_of_mem _ hfound, h⟩
  rw [Mentions, String.toList_intercalate] at h
  exact hjoined items h

/-- A word that is in neither of two texts, and of which no end starts the second, is not in the
first with the second behind it. -/
theorem not_mentions_append (hfirst : ¬Mentions word first) (hsecond : ¬Mentions word second)
    (hseam : ∀ tail ∈ word.toList.tails, tail <+: second.toList → tail = []) :
    ¬Mentions word (first ++ second) := by
  rw [Mentions, String.toList_append]
  intro h
  rcases List.infix_append_iff.mp h with h | h | ⟨left, right, heq, hleft, hright⟩
  · exact hfirst h
  · exact hsecond h
  · obtain rfl := hseam right ((List.mem_tails _ _).mpr ⟨left, heq.symm⟩) hright
    rw [List.append_nil] at heq
    subst heq
    exact hfirst hleft.isInfix

end Text

/-! ## Identifiers -/

namespace Text

theorem mem_intercalate {separator : List Char} {items : List (List Char)}
    (h : c ∈ separator.intercalate items) : c ∈ separator ∨ ∃ item ∈ items, c ∈ item := by
  induction items with
  | nil => cases h
  | cons item rest ih =>
    cases rest with
    | nil =>
      rw [List.intercalate_singleton] at h
      exact .inr ⟨item, List.mem_cons_self, h⟩
    | cons next rest =>
      rw [List.intercalate_cons_cons, List.append_assoc] at h
      rcases List.mem_append.mp h with h | h
      · exact .inr ⟨item, List.mem_cons_self, h⟩
      rcases List.mem_append.mp h with h | h
      · exact .inl h
      · refine (ih h).imp_right ?_
        rintro ⟨found, hfound, h⟩
        exact ⟨found, List.mem_cons_of_mem _ hfound, h⟩

theorem toLower_of_isDigit {c : Char} (h : c.isDigit = true) : c.toLower = c := by
  grind [Char.toLower, Char.isDigit]

/-- A letter stays a letter in lower case, and a digit stays what it is. -/
theorem isAlphanum_toLower {c : Char} (h : c.isAlphanum = true) : c.toLower.isAlphanum = true := by
  rw [Char.isAlphanum, Bool.or_eq_true] at h ⊢
  rw [Char.isAlpha_toLower_eq_isAlpha]
  refine h.imp_right fun hdigit => ?_
  rwa [toLower_of_isDigit hdigit]

end Text

/-- A slug consists of letters, digits and hyphens. -/
theorem mem_slug {s : String} {c : Char} (h : c ∈ (slug s).toList) :
    c = '-' ∨ c.isAlphanum = true := by
  rw [slug, String.toList_ofList] at h
  rcases Text.mem_intercalate h with h | ⟨word, hword, h⟩
  · exact .inl (List.mem_singleton.mp h)
  · obtain ⟨run, hrun, rfl⟩ := List.mem_map.mp hword
    obtain ⟨letter, hletter, rfl⟩ := List.mem_map.mp h
    have hkept := Text.not_of_mem_splitOnP (List.mem_filter.mp hrun).1 letter hletter
    exact .inr (Text.isAlphanum_toLower (by simpa using hkept))

namespace Workflow

/-- The identifier of a workflow is the one that it gives, or a slug. -/
theorem id_cases (w : Workflow) : w.workflowId = some w.id ∨ ∃ s, w.id = slug s := by
  rw [Workflow.id]
  split
  case h_1 given hgiven =>
    split
    · exact .inr ⟨_, rfl⟩
    · exact .inl hgiven
  case h_2 => exact .inr ⟨_, rfl⟩

end Workflow

end AgentGate
