import AgentGate.Proofs.Permission.Attribution

/-!
# The names that a list of toolsets stands for

The entries of a list mention names, some of them several at once and some of them again. One pass
takes up each name where it is mentioned first. What a pass has found depends on what it started
with only in that these names are not taken up again, so a list may be read in parts. A list of
distinct names of which each stands for itself is left as it is.

- `Toolset.Plain`: a name that stands for itself alone.
- `Toolset.mentions`: all that the entries of a list mention, with repetitions.
- `Toolset.push`: taking up one more name.
- `Toolset.FirstMentions`: every mentioned name once, in the order of first mention. A step of the
  pass keeps this (`FirstMentions.step`), so that the whole pass has it (`firstMentions_expand`).
- `Toolset.expand_append`: a list read in two parts.
- `Toolset.expand_eq_self_iff`: the lists that stand for themselves.
-/

namespace AgentGate

namespace Toolset

variable {text name other : String} {texts names found mentioned : List String}

/-! ## What an entry mentions -/

/-- A name that stands for itself alone: it has no blanks around it, and it is neither blank nor a
keyword. -/
structure Plain (name : String) : Prop where
  trimmed : Text.trim name = name
  ne_empty : name ≠ ""
  ne_default : name ≠ "default"
  ne_all : name ≠ "all"

theorem expandEntry_eq_self_iff : expandEntry name = [name] ↔ Plain name := by
  constructor
  · intro h
    simp only [expandEntry] at h
    split at h
    case isTrue => cases h
    case isFalse hempty =>
      -- A keyword stands for more than one name.
      split at h
      case isTrue => cases congrArg List.length h
      case isFalse hnotDefault =>
        split at h
        case isTrue => cases congrArg List.length h
        case isFalse hnotAll =>
          have htrim := List.singleton_inj.mp h
          rw [htrim] at hempty hnotDefault hnotAll
          exact ⟨htrim, hempty, hnotDefault, hnotAll⟩
  · intro h
    simp only [expandEntry, h.trimmed, if_neg h.ne_empty, if_neg h.ne_default, if_neg h.ne_all]

/-- All that the entries of a list mention, one after the other and with repetitions. -/
def mentions (texts : List String) : List String :=
  texts.flatMap expandEntry

theorem mentions_append (texts more : List String) :
    mentions (texts ++ more) = mentions texts ++ mentions more :=
  List.flatMap_append

/-- Names that stand for themselves mention themselves. -/
theorem mentions_eq_self (h : ∀ name ∈ names, Plain name) : mentions names = names := by
  induction names with
  | nil => rfl
  | cons name rest ih =>
    obtain ⟨hname, hrest⟩ := List.forall_mem_cons.mp h
    rw [mentions, List.flatMap_cons, expandEntry_eq_self_iff.mpr hname, ← mentions, ih hrest,
      List.singleton_append]

/-- Only names that stand for themselves are found in a list. -/
theorem plain_of_mem_expand (h : name ∈ expand texts) : Plain name := by
  obtain ⟨text, -, hname⟩ := mem_expand_iff.mp h
  exact expandEntry_eq_self_iff.mp (expandEntry_of_mem hname)

/-! ## One pass over what is mentioned -/

/-- Takes up one more name, unless it has been found before. -/
def push (found : List String) (name : String) : List String :=
  if name ∈ found then found else found ++ [name]

theorem push_of_mem (h : name ∈ found) : push found name = found :=
  if_pos h

theorem push_of_not_mem (h : name ∉ found) : push found name = found ++ [name] :=
  if_neg h

theorem mem_push_iff : other ∈ push found name ↔ other ∈ found ∨ other = name := by
  by_cases h : name ∈ found
  · rw [push_of_mem h]
    exact (or_iff_left_of_imp fun heq => heq ▸ h).symm
  · rw [push_of_not_mem h, List.mem_append, List.mem_singleton]

/-- A list is expanded in one pass. -/
theorem expand_eq_foldl (texts : List String) : expand texts = (mentions texts).foldl push [] := by
  rw [expand, ← mentions]
  induction mentions texts using List.reverseRecOn with
  | nil => rfl
  | append_singleton before name ih =>
    rw [List.eraseDups_append, List.foldl_append, ← ih, List.foldl_cons, List.foldl_nil]
    by_cases h : name ∈ before
    · rw [push_of_mem (List.mem_eraseDups.mpr h)]
      simp [List.removeAll, h]
    · rw [push_of_not_mem (mt List.mem_eraseDups.mp h)]
      simp [List.removeAll, h, List.eraseDups_cons]

/-- Where nothing is mentioned twice, all of it is taken up. -/
theorem foldl_push_of_nodup (h : (found ++ mentioned).Nodup) :
    mentioned.foldl push found = found ++ mentioned := by
  induction mentioned generalizing found with
  | nil => rw [List.foldl_nil, List.append_nil]
  | cons name rest ih =>
    have hnew : name ∉ found := fun hmem =>
      (List.nodup_append.mp h).2.2 name hmem name List.mem_cons_self rfl
    rw [List.append_cons] at h
    rw [List.foldl_cons, push_of_not_mem hnew, ih h, ← List.append_cons]

/-! ### The order of first mention -/

/-- The names are those that are mentioned, in the order in which they are mentioned first. -/
structure FirstMentions (mentioned names : List String) : Prop where
  mem_iff : ∀ name, name ∈ names ↔ name ∈ mentioned
  ordered : names.Pairwise fun name later => mentioned.idxOf name < mentioned.idxOf later

theorem firstMentions_nil : FirstMentions [] [] where
  mem_iff _ := Iff.rfl
  ordered := .nil

theorem FirstMentions.nodup (h : FirstMentions mentioned names) : names.Nodup := by
  refine h.ordered.imp ?_
  rintro name _ hless rfl
  exact lt_irrefl _ hless

/-- One more mention leaves the first mentions before it where they are. -/
theorem FirstMentions.ordered_append (h : FirstMentions mentioned names) (name : String) :
    names.Pairwise fun earlier later =>
      (mentioned ++ [name]).idxOf earlier < (mentioned ++ [name]).idxOf later := by
  refine h.ordered.imp_of_mem fun hearlier hlater hless => ?_
  rwa [List.idxOf_append_of_mem ((h.mem_iff _).mp hearlier),
    List.idxOf_append_of_mem ((h.mem_iff _).mp hlater)]

/-- A step keeps the order of first mention. -/
theorem FirstMentions.step (h : FirstMentions mentioned names) (name : String) :
    FirstMentions (mentioned ++ [name]) (push names name) where
  mem_iff other := by
    rw [mem_push_iff, h.mem_iff, List.mem_append, List.mem_singleton]
  ordered := by
    by_cases hmem : name ∈ names
    · rw [push_of_mem hmem]
      exact h.ordered_append name
    · rw [push_of_not_mem hmem, List.pairwise_append]
      refine ⟨h.ordered_append name, List.pairwise_singleton _ _, ?_⟩
      intro earlier hearlier later hlater
      obtain rfl := List.mem_singleton.mp hlater
      -- What has been found was mentioned before, and the new name was not.
      have hbefore : earlier ∈ mentioned := (h.mem_iff _).mp hearlier
      have hnew : later ∉ mentioned := mt (h.mem_iff _).mpr hmem
      calc (mentioned ++ [later]).idxOf earlier
          = mentioned.idxOf earlier := List.idxOf_append_of_mem hbefore
        _ < mentioned.length := List.idxOf_lt_length_of_mem hbefore
        _ ≤ (mentioned ++ [later]).idxOf later := by
          rw [List.idxOf_append_of_notMem hnew]
          exact Nat.le_add_right _ _

/-- A whole pass has the order of first mention. -/
theorem firstMentions_foldl (mentioned : List String) :
    FirstMentions mentioned (mentioned.foldl push []) := by
  induction mentioned using List.reverseRecOn with
  | nil => exact firstMentions_nil
  | append_singleton before name ih =>
    rw [List.foldl_append]
    exact ih.step name

theorem firstMentions_expand (texts : List String) :
    FirstMentions (mentions texts) (expand texts) := by
  rw [expand_eq_foldl]
  exact firstMentions_foldl _

/-! ### Reading a list in parts -/

/-- A step with names found before is a step without them that leaves them out. -/
theorem push_append_filter (before found : List String) (name : String) :
    push (before ++ found.filter fun other => other ∉ before) name
      = before ++ (push found name).filter fun other => other ∉ before := by
  by_cases hbefore : name ∈ before
  · rw [push_of_mem (List.mem_append_left _ hbefore)]
    congr 1
    by_cases hfound : name ∈ found
    · rw [push_of_mem hfound]
    · rw [push_of_not_mem hfound, List.filter_append]
      simp [hbefore]
  · by_cases hfound : name ∈ found
    · have hkept : name ∈ found.filter fun other => other ∉ before :=
        List.mem_filter.mpr ⟨hfound, decide_eq_true hbefore⟩
      rw [push_of_mem hfound, push_of_mem (List.mem_append_right _ hkept)]
    · have hnew : name ∉ before ++ found.filter fun other => other ∉ before := by
        rw [List.mem_append, List.mem_filter]
        exact fun h => h.elim hbefore fun h => hfound h.1
      rw [push_of_not_mem hfound, push_of_not_mem hnew, List.filter_append, List.append_assoc]
      simp [hbefore]

/-- A pass with names found before is a pass without them that leaves them out. -/
theorem foldl_push_eq (before mentioned : List String) : mentioned.foldl push before
    = before ++ (mentioned.foldl push []).filter fun name => name ∉ before := by
  induction mentioned using List.reverseRecOn with
  | nil => exact (List.append_nil before).symm
  | append_singleton rest name ih =>
    rw [List.foldl_append, List.foldl_append, ih]
    exact push_append_filter before _ name

/-- Of a list behind another one, the names are found that are not in the first. -/
theorem expand_append (texts more : List String) : expand (texts ++ more)
    = expand texts ++ (expand more).filter fun name => name ∉ expand texts := by
  rw [expand_eq_foldl, mentions_append, List.foldl_append, ← expand_eq_foldl, foldl_push_eq,
    ← expand_eq_foldl]

/-! ## Lists that stand for themselves -/

/-- Distinct names that stand for themselves are left as they are, and no other list is. -/
theorem expand_eq_self_iff :
    expand names = names ↔ names.Nodup ∧ ∀ name ∈ names, Plain name := by
  constructor
  · intro h
    rw [← h]
    exact ⟨(firstMentions_expand names).nodup, fun name hname => plain_of_mem_expand hname⟩
  · rintro ⟨hnodup, hplain⟩
    rw [expand_eq_foldl, mentions_eq_self hplain]
    exact foldl_push_of_nodup hnodup

theorem expand_expand (texts : List String) : expand (expand texts) = expand texts :=
  expand_eq_self_iff.mpr
    ⟨(firstMentions_expand texts).nodup, fun _ hname => plain_of_mem_expand hname⟩

/-- **What a list of toolsets stands for.** The names that are found stand for themselves: they are
trimmed and neither blank nor a keyword. They are distinct, and they are those that the list
mentions, in the order of first mention. To expand them again changes nothing. Of a list behind
another one, the names are found that are not in the first. -/
theorem expand_normalizes (texts : List String) :
    (∀ name ∈ expand texts, Plain name)
    ∧ (expand texts).Nodup
    ∧ FirstMentions (mentions texts) (expand texts)
    ∧ expand (expand texts) = expand texts
    ∧ ∀ more, expand (texts ++ more)
      = expand texts ++ (expand more).filter fun name => name ∉ expand texts := by
  have hfirst := firstMentions_expand texts
  exact ⟨fun _ hname => plain_of_mem_expand hname, hfirst.nodup, hfirst, expand_expand texts,
    expand_append texts⟩

example : expand ["default", "repos", " actions "]
    = ["context", "repos", "issues", "pull_requests", "users", "actions"] := by
  decide

end Toolset

end AgentGate
