import AgentGate.Proofs.Reference

/-!
# References that the search cannot miss

The search for references goes on behind the last dot of a reference that it has found, and so may
pass over another one that starts inside. It does not pass over a character that belongs to no
reference: behind such a character, and at the start of a text, every reference is found.

- `Reference.leading?_of_isName`: a text that starts with a reference.
- `Reference.exists_of_leading?`: what is taken for a reference holds no separator.
- `Reference.mem_names_append`: what is found behind a separator is found in the whole text.
- `Reference.mem_names_of_standsFree`: a reference at the start or behind a separator is found.
-/

namespace AgentGate.Reference

/-- Whether a name can be referred to. -/
def isName : List Char → Bool
  | [] => false
  | first :: rest => isNameStart first && rest.all isNameChar

/-- A reference to a job stands in a text, at its start or behind a separator. -/
def StandsFree (name text : String) : Prop :=
  ∃ before after, text = before ++ ("needs." ++ (name ++ ("." ++ after)))
    ∧ before.toList.getLast?.all isSeparator = true

variable {text name before after found behind : List Char}

theorem isNameChar_of_isNameStart {c : Char} (h : isNameStart c = true) : isNameChar c = true := by
  rw [isNameStart, Bool.or_eq_true] at h
  rw [isNameChar, Char.isAlphanum, Bool.or_eq_true, Bool.or_eq_true, Bool.or_eq_true]
  exact .inl (h.imp_left .inl)

/-- A text that starts with a reference is seen to do so. -/
theorem leading?_of_isName (hname : isName name = true) :
    leading? (['n', 'e', 'e', 'd', 's'] ++ '.' :: (name ++ '.' :: after)) = some (name, after) := by
  cases name with
  | nil => cases hname
  | cons first rest =>
    rw [isName, Bool.and_eq_true, List.all_eq_true] at hname
    obtain ⟨hfirst, hrest⟩ := hname
    have hdot : isNameChar '.' = false := by decide
    have htake : (rest ++ '.' :: after).takeWhile isNameChar = rest := by
      rw [List.takeWhile_append_of_pos hrest, List.takeWhile_cons_of_neg (by simp [hdot]),
        List.append_nil]
    have hdrop : (rest ++ '.' :: after).dropWhile isNameChar = '.' :: after := by
      rw [List.dropWhile_append_of_pos hrest, List.dropWhile_cons_of_neg (by simp [hdot])]
    have htext : ['n', 'e', 'e', 'd', 's'] ++ '.' :: (first :: rest ++ '.' :: after)
        = 'n' :: 'e' :: 'e' :: 'd' :: 's' :: '.' :: first :: (rest ++ '.' :: after) := rfl
    rw [htext]
    simp only [leading?, hfirst, if_true, hdrop, htake]

theorem isName_of_leading? (h : leading? text = some (found, behind)) : isName found = true := by
  unfold leading? at h
  split at h
  case h_2 => cases h
  case h_1 first rest =>
    split at h
    case isFalse => cases h
    case isTrue hfirst =>
      split at h
      case h_2 => cases h
      case h_1 =>
        cases h
        rw [isName, hfirst, Bool.true_and]
        exact List.all_takeWhile

/-- What is taken for a reference holds no separator. -/
theorem exists_of_leading? (h : leading? text = some (found, behind)) :
    ∃ run, run.any isSeparator = false ∧ text = run ++ behind := by
  have hname := isName_of_leading? h
  obtain ⟨-, htext⟩ := eq_of_leading? h
  have hchar : ∀ {c}, isNameChar c = true → isSeparator c = false := fun hc => by
    rw [isSeparator, hc, Bool.true_or, Bool.not_true]
  have hfound : found.any isSeparator = false := by
    cases found with
    | nil => cases hname
    | cons first rest =>
      rw [isName, Bool.and_eq_true, List.all_eq_true] at hname
      rw [List.any_cons, hchar (isNameChar_of_isNameStart hname.1), Bool.false_or,
        List.any_eq_false]
      exact fun c hc => Bool.eq_false_iff.mp (hchar (hname.2 c hc))
  have hword : ['n', 'e', 'e', 'd', 's', '.'].any isSeparator = false := by decide
  refine ⟨['n', 'e', 'e', 'd', 's', '.'] ++ (found ++ ['.']), ?_, ?_⟩
  · rw [List.any_append, List.any_append, hword, hfound]
    decide
  · rw [htext, List.append_assoc, List.append_assoc]
    rfl

/-- A run without separators at the start of a text ends before a separator. -/
theorem exists_append_of_run {run rest tail : List Char} {c : Char}
    (hrun : run.any isSeparator = false) (hc : isSeparator c = true)
    (h : run ++ rest = before ++ c :: tail) : ∃ mid, rest = mid ++ c :: tail := by
  rcases List.append_eq_append_iff.mp h with ⟨mid, -, hmid⟩ | ⟨mid, hmid, htail⟩
  · exact ⟨mid, hmid⟩
  · cases mid with
    | nil => exact ⟨[], htail.symm⟩
    | cons other mid =>
      obtain ⟨rfl, -⟩ := List.cons.inj htail
      rw [hmid, List.any_append, List.any_cons, hc, Bool.true_or, Bool.or_true] at hrun
      cases hrun

/-- A reference behind a separator is found: the search goes on at some place up to the separator,
and comes to the reference in the end. -/
theorem mem_names_append {c : Char} (hc : isSeparator c = true) (hname : name ∈ names after) :
    name ∈ names (before ++ c :: after) := by
  generalize htext : before ++ c :: after = text
  fun_induction names text generalizing before with
  | case1 text found behind hleading ih =>
    obtain ⟨run, hrun, hsplit⟩ := exists_of_leading? hleading
    obtain ⟨mid, hmid⟩ := exists_append_of_run hrun hc (hsplit.symm.trans htext.symm)
    exact List.mem_cons_of_mem _ (ih hmid.symm)
  | case2 => exact absurd htext (List.append_ne_nil_of_right_ne_nil _ (List.cons_ne_nil _ _))
  | case3 first rest hleading ih =>
    cases before with
    | nil =>
      obtain ⟨rfl, rfl⟩ := List.cons.inj htext
      exact hname
    | cons other before => exact ih (List.cons.inj htext).2

/-- **A reference that stands at the start of a text, or behind a separator, is found.** -/
theorem mem_names_of_standsFree {name text : String} (hname : isName name.toList = true)
    (h : StandsFree name text) : name.toList ∈ names text.toList := by
  obtain ⟨before, after, rfl, hbefore⟩ := h
  have hfound : name.toList ∈ names ("needs." ++ (name ++ ("." ++ after))).toList := by
    have hchars : ("needs." ++ (name ++ ("." ++ after))).toList
        = ['n', 'e', 'e', 'd', 's'] ++ '.' :: (name.toList ++ '.' :: after.toList) := by
      simp only [String.toList_append]
      rfl
    rw [hchars, names]
    split
    case h_1 hleading =>
      rw [leading?_of_isName hname] at hleading
      cases hleading
      exact List.mem_cons_self
    case h_2 hleading =>
      rw [leading?_of_isName hname] at hleading
      cases hleading
  rw [String.toList_append]
  rcases List.eq_nil_or_concat before.toList with hnil | ⟨start, c, hstart⟩
  · rw [hnil]
    exact hfound
  · rw [hstart, List.concat_eq_append] at hbefore ⊢
    rw [List.getLast?_concat] at hbefore
    rw [List.append_assoc]
    exact mem_names_append hbefore hfound

end AgentGate.Reference
