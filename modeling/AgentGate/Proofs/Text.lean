import AgentGate.Workflow.Basic
import Mathlib

/-!
# Texts without references

A reference starts with one of two words. A text in which neither occurs, in whatever letter case,
is silent: it refers to nothing, and neither does what is made of it by cutting, by changing its
case or by putting it next to other silent texts with something that is no letter in between.

- `Text.Silent`: neither of the words occurs.
- `Text.silent_append_cons_iff`: around a character that is no letter both sides have to be silent.
- `Text.silent_slug`, `Workflow.silent_id`: the identifier of a workflow is as silent as its source.
-/

namespace AgentGate

namespace Text

/-! ## Silent texts and their parts -/

/-- The words that references start with. -/
def keywords : List (List Char) :=
  [['n', 'e', 'e', 'd', 's'], ['s', 't', 'e', 'p', 's']]

/-- Neither word occurs, in whatever letter case. -/
def Silent (cs : List Char) : Prop :=
  ∀ word ∈ keywords, ¬ word <:+: cs.map Char.toLower

variable {cs first second : List Char} {c : Char}

/-- Whether a text is silent: no word starts at any of its characters. -/
def isSilent : List Char → Bool
  | [] => true
  | c :: cs => !keywords.any (List.isPrefixOf · ((c :: cs).map Char.toLower)) && isSilent cs

theorem isSilent_iff : isSilent cs = true ↔ Silent cs := by
  induction cs with
  | nil => exact iff_of_true rfl (by simp [Silent, keywords])
  | cons c cs ih =>
    simp only [isSilent, Bool.and_eq_true, Bool.not_eq_true', List.any_eq_false,
      List.isPrefixOf_iff_prefix, ih, Silent, List.map_cons, List.infix_cons_iff, not_or,
      imp_and, forall_and]

instance : DecidablePred Silent := fun _ =>
  decidable_of_iff _ isSilent_iff

theorem Silent.of_infix (h : Silent cs) (hpart : first <:+: cs) : Silent first :=
  fun word hword hoccurs => h word hword (hoccurs.trans (hpart.map Char.toLower))

/-- A silent text cannot be split around one of the words. -/
theorem Silent.ne_of_mem_keywords {word before after : List Char} (h : Silent cs)
    (hword : word ∈ keywords) : cs ≠ before ++ (word ++ after) := by
  rintro rfl
  have hlower : ∀ word ∈ keywords, word.map Char.toLower = word := by decide
  refine h word hword ?_
  rw [List.map_append, List.map_append, hlower word hword, ← List.append_assoc]
  exact List.infix_append _ _ _

theorem trimChars_isInfix (cs : List Char) : trimChars cs <:+: cs := by
  have hright : (trimChars cs) <+: cs.dropWhile isBlank := by
    rw [trimChars, ← List.reverse_suffix, List.reverse_reverse]
    exact List.dropWhile_suffix _
  exact hright.isInfix.trans (List.dropWhile_suffix _).isInfix

theorem Silent.trim {s : String} (h : Silent s.toList) : Silent (Text.trim s).toList := by
  rw [Text.trim, String.toList_ofList]
  exact h.of_infix (trimChars_isInfix _)

theorem Silent.firstWord {s : String} (h : Silent s.toList) : Silent (Text.firstWord s).toList := by
  rw [Text.firstWord, String.toList_ofList]
  refine h.of_infix (List.IsInfix.trans ?_ (List.dropWhile_suffix isBlank).isInfix)
  exact (List.takeWhile_prefix _).isInfix

/-- The first piece between separators is at the start of a text, and the others are within it. -/
theorem splitOnP_isInfix (p : Char → Bool) (cs : List Char) :
    ∃ head rest, cs.splitOnP p = head :: rest ∧ head <+: cs ∧ ∀ piece ∈ rest, piece <:+: cs := by
  induction cs with
  | nil => exact ⟨[], [], List.splitOnP_nil, List.nil_prefix, fun _ h => nomatch h⟩
  | cons c cs ih =>
    obtain ⟨head, rest, hsplit, hhead, hrest⟩ := ih
    have hgrow : ∀ {piece}, piece <:+: cs → piece <:+: c :: cs := fun h =>
      List.infix_cons_iff.mpr (.inr h)
    rw [List.splitOnP_cons_eq_if_modifyHead, hsplit]
    split
    · exact ⟨[], head :: rest, rfl, List.nil_prefix, List.forall_mem_cons.mpr
        ⟨hgrow hhead.isInfix, fun piece hpiece => hgrow (hrest piece hpiece)⟩⟩
    · exact ⟨c :: head, rest, rfl, List.cons_prefix_cons.mpr ⟨rfl, hhead⟩,
        fun piece hpiece => hgrow (hrest piece hpiece)⟩

theorem infix_of_mem_splitOnP {p : Char → Bool} {piece : List Char} (h : piece ∈ cs.splitOnP p) :
    piece <:+: cs := by
  obtain ⟨head, rest, hsplit, hhead, hrest⟩ := splitOnP_isInfix p cs
  rw [hsplit] at h
  rcases List.mem_cons.mp h with rfl | h
  · exact hhead.isInfix
  · exact hrest piece h

theorem Silent.pieces {s piece : String} {separator : Char} (h : Silent s.toList)
    (hpiece : piece ∈ Text.pieces separator s) : Silent piece.toList := by
  obtain ⟨cs, hcs, rfl⟩ := List.mem_map.mp hpiece
  rw [String.toList_ofList]
  rw [List.splitOn_eq_splitOnP] at hcs
  exact h.of_infix (infix_of_mem_splitOnP hcs)

/-! ## Silent texts put together -/

theorem silent_nil : Silent [] := by
  decide

/-- A word does not reach across a character that is not in it. -/
theorem infix_append_cons_iff {word : List Char} (hother : c ∉ word) :
    word <:+: first ++ c :: second ↔ word <:+: first ∨ word <:+: second := by
  constructor
  · intro h
    rcases List.infix_append_iff.mp h with h | h | ⟨left, right, rfl, hleft, hright⟩
    · exact .inl h
    · rcases List.infix_cons_iff.mp h with h | h
      · cases word with
        | nil => exact .inl List.nil_infix
        | cons letter rest =>
          obtain ⟨rfl, -⟩ := List.cons_prefix_cons.mp h
          exact absurd List.mem_cons_self hother
      · exact .inr h
    · -- A word that starts before the character would contain it, or end in front of it.
      cases right with
      | nil =>
        rw [List.append_nil]
        exact .inl hleft.isInfix
      | cons letter rest =>
        obtain ⟨rfl, -⟩ := List.cons_prefix_cons.mp hright
        exact absurd (List.mem_append_right _ List.mem_cons_self) hother
  · rintro (h | h)
    · exact h.trans (List.prefix_append _ _).isInfix
    · exact h.trans ((List.suffix_cons _ _).trans (List.suffix_append _ _)).isInfix

/-- The words consist of letters. -/
theorem notMem_of_mem_keywords {word : List Char} (hword : word ∈ keywords)
    (hc : c.isAlpha = false) : c ∉ word := fun hmem => by
  have hletters : ∀ word ∈ keywords, word.all Char.isAlpha = true := by
    decide
  rw [List.all_eq_true.mp (hletters word hword) c hmem] at hc
  cases hc

/-- Around a character that is no letter, silence is that of both sides. -/
theorem silent_append_cons_iff (hc : c.isAlpha = false) :
    Silent (first ++ c :: second) ↔ Silent first ∧ Silent second := by
  have hlower : ∀ word ∈ keywords, c.toLower ∉ word := fun word hword =>
    notMem_of_mem_keywords hword ((Char.isAlpha_toLower_eq_isAlpha _).trans hc)
  rw [Silent, List.map_append, List.map_cons]
  constructor
  · intro h
    refine ⟨fun word hword hoccurs => h word hword ?_, fun word hword hoccurs => h word hword ?_⟩
    · exact (infix_append_cons_iff (hlower word hword)).mpr (.inl hoccurs)
    · exact (infix_append_cons_iff (hlower word hword)).mpr (.inr hoccurs)
  · rintro ⟨hfirst, hsecond⟩ word hword hoccurs
    rcases (infix_append_cons_iff (hlower word hword)).mp hoccurs with hoccurs | hoccurs
    · exact hfirst word hword hoccurs
    · exact hsecond word hword hoccurs

theorem silent_cons_iff (hc : c.isAlpha = false) : Silent (c :: cs) ↔ Silent cs :=
  (@silent_append_cons_iff [] cs c hc).trans (and_iff_right silent_nil)

/-- A text without letters is silent. -/
theorem silent_of_not_isAlpha (h : ∀ c ∈ cs, c.isAlpha = false) : Silent cs := by
  induction cs with
  | nil => exact silent_nil
  | cons c cs ih =>
    obtain ⟨hc, hcs⟩ := List.forall_mem_cons.mp h
    exact (silent_cons_iff hc).mpr (ih hcs)

theorem silent_intercalate (hc : c.isAlpha = false) {items : List (List Char)}
    (h : ∀ item ∈ items, Silent item) : Silent ([c].intercalate items) := by
  induction items with
  | nil => exact silent_nil
  | cons item rest ih =>
    obtain ⟨hitem, hrest⟩ := List.forall_mem_cons.mp h
    cases rest with
    | nil =>
      rw [List.intercalate_singleton]
      exact hitem
    | cons next rest =>
      rw [List.intercalate_cons_cons, List.append_assoc, List.singleton_append]
      exact (silent_append_cons_iff hc).mpr ⟨hitem, ih hrest⟩

/-! ### Strings

A literal is the string of a list of characters, so that what is asked of it can be decided on that
list. -/

variable {s : String}

theorem silent_literal (h : Silent cs) : Silent (String.ofList cs).toList := by
  rwa [String.toList_ofList]

/-- A literal that does not end with a letter may come before a text. -/
theorem silent_literal_append (h : Silent cs ∧ cs.getLast?.any Char.isAlpha = false)
    (hs : Silent s.toList) : Silent (String.ofList cs ++ s).toList := by
  rw [String.toList_append, String.toList_ofList]
  rcases List.eq_nil_or_concat cs with rfl | ⟨cs, c, rfl⟩
  · exact hs
  · rw [List.concat_eq_append] at h ⊢
    rw [List.getLast?_concat] at h
    rw [List.append_assoc]
    exact (silent_append_cons_iff h.2).mpr ⟨((silent_append_cons_iff h.2).mp h.1).1, hs⟩

/-- A literal that does not start with a letter may come behind a text. -/
theorem silent_append_literal (hs : Silent s.toList)
    (h : Silent cs ∧ cs.head?.any Char.isAlpha = false) :
    Silent (s ++ String.ofList cs).toList := by
  rw [String.toList_append, String.toList_ofList]
  cases cs with
  | nil =>
    rw [List.append_nil]
    exact hs
  | cons c cs =>
    exact (silent_append_cons_iff h.2).mpr ⟨hs, (silent_cons_iff h.2).mp h.1⟩

theorem silent_listing {items : List String} (h : ∀ item ∈ items, Silent item.toList) :
    Silent (",".intercalate items).toList := by
  rw [String.toList_intercalate]
  refine silent_intercalate (c := ',') (by decide) fun item hitem => ?_
  obtain ⟨text, htext, rfl⟩ := List.mem_map.mp hitem
  exact h text htext

theorem isDigit_of_mem_toString {n : Nat} {c : Char} (hc : c ∈ (toString n).toList) :
    c.isDigit = true := by
  rw [Nat.toString_eq_repr, Nat.toList_repr] at hc
  exact Nat.isDigit_of_mem_toDigits (by decide) (by decide) hc

theorem silent_toString_nat (n : Nat) : Silent (toString n).toList := by
  refine silent_of_not_isAlpha fun c hc => ?_
  have hdigit := isDigit_of_mem_toString hc
  grind [Char.isDigit, Char.isAlpha, Char.isUpper, Char.isLower]

/-! ## Identifiers -/

/-- Changing letters to lower case does not make a word of what is none. -/
theorem Silent.toLower (h : Silent cs) : Silent (cs.map Char.toLower) := by
  have htwice : Char.toLower ∘ Char.toLower = Char.toLower := funext Char.toLower_toLower_eq_toLower
  rw [Silent, List.map_map, htwice]
  exact h

end Text

theorem silent_slug {s : String} (h : Text.Silent s.toList) : Text.Silent (slug s).toList := by
  rw [slug, String.toList_ofList]
  refine Text.silent_intercalate (by decide) fun item hitem => ?_
  obtain ⟨run, hrun, rfl⟩ := List.mem_map.mp hitem
  exact (h.of_infix (Text.infix_of_mem_splitOnP (List.mem_filter.mp hrun).1)).toLower

namespace Workflow

variable {w : Workflow}

/-- The identifier of a workflow comes from what it gives as identifier, source or name. -/
theorem silent_id (hname : Text.Silent w.name.toList)
    (hid : ∀ id, w.workflowId = some id → Text.Silent id.toList)
    (hsource : ∀ source, w.source = some source → Text.Silent source.toList) :
    Text.Silent w.id.toList := by
  have hstem : Text.Silent (w.sourceStem?.getD w.name).toList := by
    cases h : w.sourceStem? with
    | none => exact hname
    | some stem =>
      obtain ⟨source, hgiven, h⟩ := Option.bind_eq_some_iff.mp h
      obtain ⟨file, hfile, h⟩ := Option.bind_eq_some_iff.mp h
      obtain ⟨found, hfound, h⟩ := Option.bind_eq_some_iff.mp h
      have hsilent := ((hsource source hgiven).pieces (List.mem_of_getLast? hfile)).pieces
        (List.mem_of_head? hfound)
      split at h
      · cases h
      · rwa [← Option.some.inj h]
  rw [Workflow.id]
  split
  case h_1 given hgiven =>
    split
    · exact silent_slug hstem
    · exact hid given hgiven
  case h_2 => exact silent_slug hstem

end Workflow

end AgentGate
