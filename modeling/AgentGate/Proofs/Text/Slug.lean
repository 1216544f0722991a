import AgentGate.Proofs.Text.Blank
import AgentGate.Proofs.Text.Mentions

/-!
# Slugs

A slug is also what one pass over a text writes: letters and digits in lower case, and one hyphen
for all that stands between them. A hyphen is not written where one was written last, and those at
both ends are cut off afterwards. That hyphens stay apart is what each step keeps, so it need not be
seen from the words of the text.

- `IsSlug`: the form that slugs have.
- `Slug.step`, `Slug.scan`, `Slug.cut`: the pass over a text.
- `Slug.Regular.step`, `Slug.filter_step`: what one step keeps, and `Slug.regular_scan`,
  `Slug.filter_scan` the same of a whole pass.
- `slug_eq_cut_scan`, `slug_trim`: a slug is what the pass writes, and blanks around a text do not
  count.
- `slug_eq_self_iff`: the texts that are their own slugs.
-/

namespace AgentGate

/-! ## The form of a slug -/

namespace Slug

/-- Lower-case ASCII letters, digits and hyphens, and nowhere two hyphens next to each other. -/
structure Regular (cs : List Char) : Prop where
  letters : ∀ c ∈ cs, c.isLower = true ∨ c.isDigit = true ∨ c = '-'
  apart : cs.IsChain fun c next => c ≠ '-' ∨ next ≠ '-'

end Slug

/-- A regular text with no hyphen at either end. -/
structure IsSlug (s : String) : Prop extends Slug.Regular s.toList where
  head : s.toList.head? ≠ some '-'
  last : s.toList.getLast? ≠ some '-'

namespace Slug

variable {c : Char} {cs written : List Char}

theorem isAlphanum_iff : c.isAlphanum = true ↔ c.isAlpha = true ∨ c.isDigit = true := by
  rw [Char.isAlphanum, Bool.or_eq_true]

theorem isLower_or_isDigit_toLower (h : c.isAlphanum = true) :
    c.toLower.isLower = true ∨ c.toLower.isDigit = true := by
  rcases isAlphanum_iff.mp h with halpha | hdigit
  · exact .inl ((Char.isLower_toLower_eq_isAlpha c).trans halpha)
  · rw [Text.toLower_of_isDigit hdigit]
    exact .inr hdigit

theorem toLower_ne_hyphen (h : c.isAlphanum = true) : c.toLower ≠ '-' := by
  intro heq
  have hletter := Text.isAlphanum_toLower h
  rw [heq] at hletter
  exact absurd hletter (by decide)

/-- There is nothing to change to lower case in a regular text. -/
theorem Regular.toLower_eq (h : Regular cs) (hc : c ∈ cs) : c.toLower = c := by
  rcases h.letters c hc with hlower | hdigit | rfl
  · grind [Char.toLower, Char.isLower]
  · exact Text.toLower_of_isDigit hdigit
  · decide

/-- Only hyphens are between the letters and digits of a regular text. -/
theorem Regular.eq_hyphen (h : Regular cs) (hc : c ∈ cs) (hother : c.isAlphanum = false) :
    c = '-' := by
  rcases h.letters c hc with hlower | hdigit | hhyphen
  · have halpha : c.isAlpha = true := by rw [Char.isAlpha, hlower, Bool.or_true]
    rw [isAlphanum_iff.mpr (.inl halpha)] at hother
    cases hother
  · rw [isAlphanum_iff.mpr (.inr hdigit)] at hother
    cases hother
  · exact hhyphen

/-! ## One pass over a text -/

/-- Reads one character: a letter or digit is written in lower case, and any other character as a
hyphen, unless a hyphen was written last. -/
def step (written : List Char) (c : Char) : List Char :=
  if c.isAlphanum then written ++ [c.toLower]
  else if written.getLast? = some '-' then written
  else written ++ ['-']

/-- What is written for a text, hyphens at its ends included. -/
def scan (cs : List Char) : List Char :=
  cs.foldl step []

/-- The characters without the hyphens at both ends. -/
def cut (cs : List Char) : List Char :=
  (cs.dropWhile (· = '-')).rdropWhile (· = '-')

/-- All that a step can do. -/
theorem step_cases (written : List Char) (c : Char) :
    (c.isAlphanum = true ∧ step written c = written ++ [c.toLower])
    ∨ (c.isAlphanum = false ∧ written.getLast? ≠ some '-'
      ∧ step written c = written ++ ['-'])
    ∨ (c.isAlphanum = false ∧ written.getLast? = some '-' ∧ step written c = written) := by
  rw [step]
  cases hc : c.isAlphanum with
  | true => exact .inl ⟨rfl, if_pos rfl⟩
  | false =>
    rw [if_neg Bool.false_ne_true]
    by_cases hlast : written.getLast? = some '-'
    · exact .inr (.inr ⟨rfl, hlast, if_pos hlast⟩)
    · exact .inr (.inl ⟨rfl, hlast, if_neg hlast⟩)

theorem scan_concat (cs : List Char) (c : Char) : scan (cs ++ [c]) = step (scan cs) c :=
  List.foldl_concat step [] c cs

/-! ### What a pass keeps -/

theorem regular_nil : Regular [] where
  letters _ h := absurd h List.not_mem_nil
  apart := .nil

theorem Regular.of_infix {part : List Char} (h : Regular cs) (hpart : part <:+: cs) :
    Regular part where
  letters c hc := h.letters c (hpart.subset hc)
  apart := h.apart.infix hpart

/-- A character may be written behind others unless two hyphens would meet. -/
theorem Regular.concat (h : Regular written)
    (hc : c.isLower = true ∨ c.isDigit = true ∨ c = '-')
    (hmeet : written.getLast? = some '-' → c ≠ '-') : Regular (written ++ [c]) where
  letters := List.forall_mem_append.mpr ⟨h.letters, List.forall_mem_singleton.mpr hc⟩
  apart := by
    refine h.apart.append (List.isChain_singleton c) fun last hlast next hnext => ?_
    obtain rfl := Option.some.inj hnext
    by_cases hhyphen : last = '-'
    · exact .inr (hmeet (hhyphen ▸ hlast))
    · exact .inl hhyphen

/-- A step keeps hyphens apart. -/
theorem Regular.step (h : Regular written) (c : Char) : Regular (step written c) := by
  rcases step_cases written c with ⟨hc, heq⟩ | ⟨-, hlast, heq⟩ | ⟨-, -, heq⟩
  · rw [heq]
    refine h.concat ?_ fun _ => toLower_ne_hyphen hc
    exact (isLower_or_isDigit_toLower hc).imp_right .inl
  · rw [heq]
    exact h.concat (.inr (.inr rfl)) fun hhyphen => absurd hhyphen hlast
  · rw [heq]
    exact h

theorem regular_scan (cs : List Char) : Regular (scan cs) := by
  induction cs using List.reverseRecOn with
  | nil => exact regular_nil
  | append_singleton cs c ih =>
    rw [scan_concat]
    exact ih.step c

/-- A step writes a letter or digit in lower case, and otherwise adds none. -/
theorem filter_step (written : List Char) (c : Char) : (step written c).filter Char.isAlphanum
    = written.filter Char.isAlphanum ++ ([c].filter Char.isAlphanum).map Char.toLower := by
  have hhyphen : ['-'].filter Char.isAlphanum = [] := by decide
  rcases step_cases written c with ⟨hc, heq⟩ | ⟨hc, -, heq⟩ | ⟨hc, -, heq⟩
  · rw [heq, List.filter_append, List.filter_singleton, List.filter_singleton, hc,
      Text.isAlphanum_toLower hc]
    rfl
  · rw [heq, List.filter_append, hhyphen, List.filter_singleton, hc]
    rfl
  · rw [heq, List.filter_singleton, hc]
    exact (List.append_nil _).symm

theorem filter_scan (cs : List Char) :
    (scan cs).filter Char.isAlphanum = (cs.filter Char.isAlphanum).map Char.toLower := by
  induction cs using List.reverseRecOn with
  | nil => rfl
  | append_singleton cs c ih =>
    rw [scan_concat, filter_step, ih, List.filter_append, List.map_append]

/-! ### What is cut off -/

theorem cut_isInfix (cs : List Char) : cut cs <:+: cs :=
  (List.rdropWhile_prefix _ _).isInfix.trans (List.dropWhile_suffix _).isInfix

theorem head?_cut (cs : List Char) : (cut cs).head? ≠ some '-' := by
  intro hhead
  obtain ⟨after, hafter⟩ := List.rdropWhile_prefix (· = '-') (cs.dropWhile (· = '-'))
  have hstart := List.head?_dropWhile_not (· = '-') cs
  rw [← hafter, List.head?_append, ← cut, hhead] at hstart
  exact absurd rfl (of_decide_eq_false hstart)

theorem getLast?_cut (cs : List Char) : (cut cs).getLast? ≠ some '-' := by
  intro hlast
  have hne : cut cs ≠ [] := fun hnil => by
    rw [hnil] at hlast
    cases hlast
  rw [List.getLast?_eq_some_getLast hne] at hlast
  exact List.rdropWhile_last_not (· = '-') _ hne (decide_eq_true (Option.some.inj hlast))

theorem filter_dropWhile (cs : List Char) :
    (cs.dropWhile (· = '-')).filter Char.isAlphanum = cs.filter Char.isAlphanum := by
  induction cs with
  | nil => rfl
  | cons c cs ih =>
    by_cases hc : c = '-'
    · subst hc
      exact ih
    · rw [List.dropWhile_cons_of_neg (by simpa using hc)]

/-- No letter or digit is cut off. -/
theorem filter_cut (cs : List Char) :
    (cut cs).filter Char.isAlphanum = cs.filter Char.isAlphanum := by
  rw [cut, List.rdropWhile, List.filter_reverse, filter_dropWhile, List.filter_reverse,
    List.reverse_reverse, filter_dropWhile]

theorem isSlug_cut (h : Regular cs) : IsSlug (String.ofList (cut cs)) where
  toRegular := by
    rw [String.toList_ofList]
    exact h.of_infix (cut_isInfix cs)
  head := by
    rw [String.toList_ofList]
    exact head?_cut cs
  last := by
    rw [String.toList_ofList]
    exact getLast?_cut cs

/-! ### What a pass leaves as it is -/

/-- What is regular together with what is already written is written as it is. -/
theorem foldl_step_of_regular (h : Regular (written ++ cs)) :
    cs.foldl step written = written ++ cs := by
  induction cs generalizing written with
  | nil => exact (List.append_nil written).symm
  | cons c cs ih =>
    have hmem : c ∈ written ++ c :: cs := List.mem_append_right _ List.mem_cons_self
    have hstep : step written c = written ++ [c] := by
      rcases step_cases written c with ⟨-, heq⟩ | ⟨hc, -, heq⟩ | ⟨hc, hlast, -⟩
      · rw [heq, h.toLower_eq hmem]
      · rw [heq, h.eq_hyphen hmem hc]
      · -- Two hyphens would meet.
        have hmeet := (List.isChain_append.mp h.apart).2.2 '-' hlast c rfl
        exact absurd (h.eq_hyphen hmem hc) (hmeet.resolve_left (not_not.mpr rfl))
    rw [List.append_cons] at h
    rw [List.foldl_cons, hstep, ih h, ← List.append_cons]

theorem scan_of_regular (h : Regular cs) : scan cs = cs :=
  foldl_step_of_regular h

theorem cut_of_ends (hhead : cs.head? ≠ some '-') (hlast : cs.getLast? ≠ some '-') :
    cut cs = cs := by
  have hdrop : cs.dropWhile (· = '-') = cs := by
    cases cs with
    | nil => rfl
    | cons c cs =>
      refine List.dropWhile_cons_of_neg ?_
      intro hc
      exact hhead (congrArg some (of_decide_eq_true hc))
  rw [cut, hdrop, List.rdropWhile_eq_self_iff]
  intro hne hc
  rw [List.getLast?_eq_some_getLast hne] at hlast
  exact hlast (congrArg some (of_decide_eq_true hc))

/-! ## The words of a text

A slug is defined by the words of the text, which start and end anywhere to the right of what has
been read. So the pass is compared with them from the other end: by what it still writes for the
rest of a text. -/

/-- Runs of letters and digits in lower case, without the empty ones. -/
def wordsOf (runs : List (List Char)) : List (List Char) :=
  (runs.filter fun run => !run.isEmpty).map fun word => word.map Char.toLower

/-- The runs of letters and digits in a text, empty where two other characters meet. -/
def runs (cs : List Char) : List (List Char) :=
  cs.splitOnP fun c => !c.isAlphanum

theorem toList_slug (s : String) :
    (slug s).toList = ['-'].intercalate (wordsOf (runs s.toList)) := by
  rw [slug, String.toList_ofList]
  rfl

/-- Words with a hyphen before each. -/
def hyphened (words : List (List Char)) : List Char :=
  words.flatMap fun word => '-' :: word

theorem tail_hyphened (words : List (List Char)) :
    (hyphened words).tail = ['-'].intercalate words := by
  have hcons : ∀ (word : List Char) (words : List (List Char)),
      word ++ hyphened words = ['-'].intercalate (word :: words) := by
    intro word words
    induction words generalizing word with
    | nil =>
      rw [List.intercalate_singleton]
      exact List.append_nil word
    | cons next rest ih =>
      rw [List.intercalate_cons_cons, ← ih, List.append_assoc]
      rfl
  cases words with
  | nil => rfl
  | cons word rest => exact hcons word rest

/-! ### What is written for the rest of a text -/

/-- What the pass still writes, where a hyphen was written last or not. -/
def spell (afterHyphen : Bool) : List Char → List Char
  | [] => []
  | c :: cs =>
    if c.isAlphanum then c.toLower :: spell false cs
    else if afterHyphen then spell true cs
    else '-' :: spell true cs

theorem spell_of_isAlphanum (h : c.isAlphanum = true) (afterHyphen : Bool) (cs : List Char) :
    spell afterHyphen (c :: cs) = c.toLower :: spell false cs := by
  rw [spell, if_pos h]

theorem spell_true_of_other (h : c.isAlphanum = false) (cs : List Char) :
    spell true (c :: cs) = spell true cs := by
  rw [spell, if_neg (Bool.eq_false_iff.mp h), if_pos rfl]

theorem spell_false_of_other (h : c.isAlphanum = false) (cs : List Char) :
    spell false (c :: cs) = '-' :: spell true cs := by
  rw [spell, if_neg (Bool.eq_false_iff.mp h), if_neg Bool.false_ne_true]

/-- What was written before shows only in whether it ends with a hyphen. -/
theorem foldl_step_eq (written cs : List Char) :
    cs.foldl step written = written ++ spell (written.getLast? = some '-') cs := by
  induction cs generalizing written with
  | nil => exact (List.append_nil written).symm
  | cons c cs ih =>
    rw [List.foldl_cons, ih]
    rcases step_cases written c with ⟨hc, heq⟩ | ⟨hc, hlast, heq⟩ | ⟨hc, hlast, heq⟩
    · have hletter : ¬(written ++ [c.toLower]).getLast? = some '-' := by
        simpa using toLower_ne_hyphen hc
      rw [heq, spell_of_isAlphanum hc, decide_eq_false hletter, List.append_assoc,
        List.singleton_append]
    · have hhyphen : (written ++ ['-']).getLast? = some '-' := List.getLast?_concat
      rw [heq, decide_eq_true hhyphen, decide_eq_false hlast, spell_false_of_other hc,
        List.append_assoc, List.singleton_append]
    · rw [heq, decide_eq_true hlast, spell_true_of_other hc]

/-- After a hyphen no other is written first. -/
theorem dropWhile_spell_true (cs : List Char) :
    (spell true cs).dropWhile (· = '-') = spell true cs := by
  induction cs with
  | nil => rfl
  | cons c cs ih =>
    cases hc : c.isAlphanum with
    | true =>
      rw [spell_of_isAlphanum hc]
      exact List.dropWhile_cons_of_neg (by simpa using toLower_ne_hyphen hc)
    | false => rw [spell_true_of_other hc, ih]

/-- To start behind a hyphen is to cut off the hyphen at the start. -/
theorem dropWhile_spell_false (cs : List Char) :
    (spell false cs).dropWhile (· = '-') = spell true cs := by
  rw [← dropWhile_spell_true]
  cases cs with
  | nil => rfl
  | cons c cs =>
    cases hc : c.isAlphanum with
    | true => rw [spell_of_isAlphanum hc, spell_of_isAlphanum hc]
    | false =>
      rw [spell_false_of_other hc, spell_true_of_other hc]
      rfl

theorem cut_scan (cs : List Char) : cut (scan cs) = (spell true cs).rdropWhile (· = '-') := by
  rw [cut, scan, foldl_step_eq, ← dropWhile_spell_false]
  rfl

/-! ### Hyphens at the end -/

theorem rdropWhile_cons_of_ne (hc : c ≠ '-') (cs : List Char) :
    (c :: cs).rdropWhile (· = '-') = c :: cs.rdropWhile (· = '-') := by
  rw [List.rdropWhile, List.reverse_cons, List.dropWhile_append, List.rdropWhile]
  by_cases hgone : cs.reverse.dropWhile (· = '-') = []
  · simp [hgone, hc]
  · simp [hgone]

/-- A hyphen stays where something stays behind it. -/
theorem rdropWhile_hyphen_cons (cs : List Char) : ('-' :: cs).rdropWhile (· = '-')
    = if cs.rdropWhile (· = '-') = [] then [] else '-' :: cs.rdropWhile (· = '-') := by
  rw [List.rdropWhile, List.reverse_cons, List.dropWhile_append, List.rdropWhile]
  by_cases hgone : cs.reverse.dropWhile (· = '-') = []
  · simp [hgone]
  · simp [hgone]

/-- A hyphen is before the words unless there are none. -/
theorem tail_of_words {words : List (List Char)} (h : ∀ word ∈ words, word ≠ []) :
    (if (hyphened words).tail = [] then [] else '-' :: (hyphened words).tail)
      = hyphened words := by
  cases words with
  | nil => rfl
  | cons word rest =>
    have hne : word ++ hyphened rest ≠ [] :=
      List.append_ne_nil_of_left_ne_nil (h word List.mem_cons_self) _
    exact if_neg hne

theorem ne_nil_of_mem_wordsOf {runs : List (List Char)} {word : List Char}
    (h : word ∈ wordsOf runs) : word ≠ [] := by
  obtain ⟨run, hrun, rfl⟩ := List.mem_map.mp h
  simpa using (List.mem_filter.mp hrun).2

/-- After a letter or digit the first run of the rest goes on with it, so that it may be empty, and
after a hyphen it is a word like the others. -/
theorem rdropWhile_spell (cs : List Char) : ∃ run rest, runs cs = run :: rest
    ∧ (spell false cs).rdropWhile (· = '-') = run.map Char.toLower ++ hyphened (wordsOf rest)
    ∧ (spell true cs).rdropWhile (· = '-') = (hyphened (wordsOf (run :: rest))).tail := by
  induction cs with
  | nil => exact ⟨[], [], List.splitOnP_nil, rfl, rfl⟩
  | cons c cs ih =>
    obtain ⟨run, rest, hruns, hletter, hhyphen⟩ := ih
    cases hc : c.isAlphanum with
    | true =>
      have hgrown : runs (c :: cs) = (c :: run) :: rest := by
        rw [runs, List.splitOnP_cons_eq_if_modifyHead, ← runs, hruns, hc]
        rfl
      have hspell : ∀ afterHyphen, (spell afterHyphen (c :: cs)).rdropWhile (· = '-')
          = (c :: run).map Char.toLower ++ hyphened (wordsOf rest) := by
        intro afterHyphen
        rw [spell_of_isAlphanum hc, rdropWhile_cons_of_ne (toLower_ne_hyphen hc), hletter]
        rfl
      exact ⟨c :: run, rest, hgrown, hspell false, hspell true⟩
    | false =>
      refine ⟨[], run :: rest, ?_, ?_, ?_⟩
      · rw [runs, List.splitOnP_cons_eq_if_modifyHead, ← runs, hruns, hc]
        rfl
      · rw [spell_false_of_other hc, rdropWhile_hyphen_cons, hhyphen]
        exact tail_of_words fun word hword => ne_nil_of_mem_wordsOf hword
      · rw [spell_true_of_other hc, hhyphen]
        rfl

/-! ### Blanks around a text -/

theorem wordsOf_runs_append_cons (hc : c.isAlphanum = false) (first second : List Char) :
    wordsOf (runs (first ++ c :: second)) = wordsOf (runs first) ++ wordsOf (runs second) := by
  have hcut : (fun c : Char => !c.isAlphanum) c = true := by simpa using hc
  rw [runs, List.splitOnP_append_cons first second hcut, wordsOf, List.filter_append,
    List.map_append]
  rfl

theorem isAlphanum_of_isBlank (h : Text.isBlank c = true) : c.isAlphanum = false := by
  rw [← Bool.not_eq_true]
  intro hletter
  rw [Text.isBlank_of_isAlphanum hletter] at h
  cases h

theorem wordsOf_runs_dropWhile (cs : List Char) :
    wordsOf (runs (cs.dropWhile Text.isBlank)) = wordsOf (runs cs) := by
  induction cs with
  | nil => rfl
  | cons c cs ih =>
    rw [List.dropWhile_cons]
    split
    case isTrue hc =>
      rw [ih]
      exact (wordsOf_runs_append_cons (isAlphanum_of_isBlank hc) [] cs).symm
    case isFalse => rfl

theorem wordsOf_runs_rdropWhile (cs : List Char) :
    wordsOf (runs (cs.rdropWhile Text.isBlank)) = wordsOf (runs cs) := by
  induction cs using List.reverseRecOn with
  | nil => rfl
  | append_singleton cs c ih =>
    rw [List.rdropWhile_concat]
    split
    case isTrue hc =>
      rw [ih, wordsOf_runs_append_cons (isAlphanum_of_isBlank hc)]
      exact (List.append_nil _).symm
    case isFalse => rfl

/-- Blanks at the ends of a text are in none of its words. -/
theorem wordsOf_runs_trimChars (cs : List Char) :
    wordsOf (runs (Text.trimChars cs)) = wordsOf (runs cs) :=
  (wordsOf_runs_rdropWhile _).trans (wordsOf_runs_dropWhile cs)

end Slug

/-! ## Slugs -/

variable {s : String}

/-- A slug is what one pass writes, without the hyphens at both ends. -/
theorem slug_eq_cut_scan (s : String) :
    slug s = String.ofList (Slug.cut (Slug.scan s.toList)) := by
  obtain ⟨run, rest, hruns, -, hhyphen⟩ := Slug.rdropWhile_spell s.toList
  rw [← String.toList_inj, String.toList_ofList, Slug.toList_slug, ← Slug.tail_hyphened, hruns,
    ← hhyphen, Slug.cut_scan]

/-- Blanks around a text do not count. -/
theorem slug_trim (s : String) : slug (Text.trim s) = slug s := by
  rw [← String.toList_inj, Slug.toList_slug, Slug.toList_slug, Text.trim, String.toList_ofList,
    Slug.wordsOf_runs_trimChars]

theorem isSlug_slug (s : String) : IsSlug (slug s) := by
  rw [slug_eq_cut_scan]
  exact Slug.isSlug_cut (Slug.regular_scan s.toList)

/-- The letters and digits of a slug are those of the text in lower case. -/
theorem filter_slug (s : String) : (slug s).toList.filter Char.isAlphanum
    = (s.toList.filter Char.isAlphanum).map Char.toLower := by
  rw [slug_eq_cut_scan, String.toList_ofList, Slug.filter_cut, Slug.filter_scan]

/-- The texts that are their own slugs are those of the form that slugs have. -/
theorem slug_eq_self_iff : slug s = s ↔ IsSlug s := by
  constructor
  · intro h
    exact h ▸ isSlug_slug s
  · intro h
    rw [slug_eq_cut_scan, Slug.scan_of_regular h.toRegular, Slug.cut_of_ends h.head h.last,
      String.ofList_toList]

instance : DecidablePred IsSlug := fun _ =>
  decidable_of_iff _ slug_eq_self_iff

/-- **What a slug is like.** It consists of lower-case ASCII letters, digits and hyphens, has no
hyphen at either end and no two next to each other. Its letters and digits are those of the text in
lower case, in their order. The slug of a slug is the slug itself. -/
theorem slug_normalizes (s : String) :
    IsSlug (slug s)
    ∧ (slug s).toList.filter Char.isAlphanum = (s.toList.filter Char.isAlphanum).map Char.toLower
    ∧ slug (slug s) = slug s :=
  ⟨isSlug_slug s, filter_slug s, slug_eq_self_iff.mpr (isSlug_slug s)⟩

example : slug " Issue--Triage (2nd)! " = "issue-triage-2nd" := by
  decide

example : IsSlug "issue-triage" ∧ ¬IsSlug "issue--triage" ∧ ¬IsSlug "Issue-triage" := by
  decide

/-- The identifier of a workflow is a slug where the workflow does not give it. -/
theorem Workflow.isSlug_id {w : Workflow} (h : w.workflowId ≠ some w.id) : IsSlug w.id := by
  obtain ⟨s, hslug⟩ := w.id_cases.resolve_left h
  rw [hslug]
  exact isSlug_slug s

end AgentGate
