import AgentGate.Embedded
import AgentGate.Proofs.Table
import AgentGate.Proofs.Text
import AgentGate.Reference

/-!
# What references refer to

A text refers to the result or an output of another job, or to an output of a step of the same job.
Which of these are there depends on the job that the text belongs to; a text that is put together
from silent texts and from references to what is there has no other references.

- `Reference.exists_of_mem_names`: where the names that are found in a text stand.
- `View`: the jobs, outputs and steps that the texts of a job can refer to.
- `View.Resolves`: texts put together from silent texts and from references to what is in view.
- `View.Resolves.occurrence`: a word that starts references starts one that is in view.
- `View.Resolves.job_of_eq`, `View.Resolves.output_of_eq`, `View.Resolves.step_of_eq`: whatever such
  a text refers to is in view.
-/

namespace AgentGate

namespace Reference

/-- The characters that no reference reaches across. -/
def isSeparator (c : Char) : Bool :=
  !(isNameChar c || c == '.')

/-- A name that can be referred to, and in which no reference starts. -/
structure Plain (name : String) : Prop where
  chars : ∀ c ∈ name.toList, isNameChar c = true
  silent : Text.Silent name.toList

theorem Plain.dot_notMem {name : String} (h : Plain name) : '.' ∉ name.toList := fun hdot =>
  absurd (h.chars '.' hdot) (by decide)

theorem isNameChar_of_isSeparator {c : Char} (h : isSeparator c = true) : isNameChar c = false := by
  rw [isSeparator, Bool.not_eq_true', Bool.or_eq_false_iff] at h
  exact h.1

theorem isAlpha_of_isSeparator {c : Char} (h : isSeparator c = true) : c.isAlpha = false := by
  have hname := isNameChar_of_isSeparator h
  rw [isNameChar, Char.isAlphanum] at hname
  simp only [Bool.or_eq_false_iff] at hname
  exact hname.1.1.1

/-- A leading reference starts with its word and reaches from one dot to the next. -/
theorem eq_of_leading? {text name after : List Char} (h : leading? text = some (name, after)) :
    '.' ∉ name ∧ text = ['n', 'e', 'e', 'd', 's'] ++ '.' :: (name ++ '.' :: after) := by
  unfold leading? at h
  split at h
  case h_2 => cases h
  case h_1 first rest =>
    split at h
    case isFalse => cases h
    case isTrue hfirst =>
      split at h
      case h_2 => cases h
      case h_1 dropped hdrop =>
        cases h
        refine ⟨fun hdot => ?_, ?_⟩
        · rcases List.mem_cons.mp hdot with rfl | hdot
          · exact absurd hfirst (by decide)
          · exact absurd (List.mem_takeWhile_imp hdot) (by decide)
        · have hrest : first :: rest = first :: rest.takeWhile isNameChar ++ '.' :: after := by
            rw [← hdrop, List.cons_append, List.takeWhile_append_dropWhile]
          exact congrArg (['n', 'e', 'e', 'd', 's', '.'] ++ ·) hrest

/-- A name that is found in a text is referred to there. -/
theorem exists_of_mem_names {text name : List Char} (h : name ∈ names text) :
    '.' ∉ name ∧ ∃ before after,
      text = before ++ (['n', 'e', 'e', 'd', 's'] ++ '.' :: (name ++ '.' :: after)) := by
  fun_induction names text with
  | case1 text found after hleading ih =>
    obtain ⟨hfound, htext⟩ := eq_of_leading? hleading
    rcases List.mem_cons.mp h with rfl | h
    · exact ⟨hfound, [], after, htext⟩
    · obtain ⟨hname, before, behind, rfl⟩ := ih h
      refine ⟨hname, ['n', 'e', 'e', 'd', 's'] ++ '.' :: (found ++ '.' :: before), behind, ?_⟩
      simp [htext]
  | case2 => cases h
  | case3 c rest hleading ih =>
    obtain ⟨hname, before, after, rfl⟩ := ih h
    exact ⟨hname, c :: before, after, rfl⟩

end Reference

open Reference Text

/-- What the texts of a job can refer to. -/
structure View where
  /-- The jobs that it needs. -/
  jobs : String → Prop
  /-- The outputs that jobs give. -/
  outputs : String → String → Prop
  /-- Its own steps. -/
  steps : String → Prop

namespace View

/-- A reference to something in view: the word that it starts with, and what follows. -/
inductive Refers (v : View) : List Char → List Char → Prop where
  | result {job : String} (hname : Plain job) (hjob : v.jobs job) :
    v.Refers ['n', 'e', 'e', 'd', 's'] ('.' :: (job.toList ++ '.' :: "result".toList))
  | jobOutput {job output : String} (hname : Plain job) (hkey : Plain output) (hjob : v.jobs job)
    (houtput : v.outputs job output) :
    v.Refers ['n', 'e', 'e', 'd', 's']
      ('.' :: (job.toList ++ '.' :: ("outputs".toList ++ '.' :: output.toList)))
  | stepOutput {step output : String} (hname : Plain step) (hkey : Plain output)
    (hstep : v.steps step) :
    v.Refers ['s', 't', 'e', 'p', 's']
      ('.' :: (step.toList ++ '.' :: ("outputs".toList ++ '.' :: output.toList)))

/-- A text put together from silent texts and from references to what is in view. -/
inductive Resolves (v : View) : List Char → Prop where
  | silent {text : List Char} (h : Silent text) : v.Resolves text
  | refers {word rest : List Char} (h : v.Refers word rest) : v.Resolves (word ++ rest)
  | seam {before after : List Char} {c : Char} (hc : isSeparator c = true)
    (hbefore : v.Resolves before) (hafter : v.Resolves after) : v.Resolves (before ++ c :: after)

variable {v : View} {word rest text before after : List Char}

/-! ## Where references start -/

theorem Refers.mem_keywords (h : v.Refers word rest) : word ∈ keywords := by
  cases h <;> decide

/-- No reference starts inside of another one. -/
theorem Refers.silent_tail (h : v.Refers word rest) : Silent (word.tail ++ rest) := by
  have hdot : '.'.isAlpha = false := by decide
  have hresult : Silent "result".toList := silent_literal (by decide)
  have houtputs : Silent "outputs".toList := silent_literal (by decide)
  cases h with
  | result hname =>
    exact (silent_append_cons_iff hdot).mpr ⟨by decide,
      (silent_append_cons_iff hdot).mpr ⟨hname.silent, hresult⟩⟩
  | jobOutput hname hkey | stepOutput hname hkey =>
    exact (silent_append_cons_iff hdot).mpr ⟨by decide, (silent_append_cons_iff hdot).mpr
      ⟨hname.silent, (silent_append_cons_iff hdot).mpr ⟨houtputs, hkey.silent⟩⟩⟩

/-- An occurrence of a word around a character that is not in it is on one side of that. -/
theorem append_cons_eq_append {first second : List Char} {c : Char} (hword : word ≠ [])
    (hc : c ∉ word) (h : first ++ c :: second = before ++ (word ++ after)) :
    (∃ mid, first = before ++ (word ++ mid) ∧ after = mid ++ c :: second)
      ∨ ∃ mid, second = mid ++ (word ++ after) := by
  rcases List.append_eq_append_iff.mp h with ⟨mid, rfl, hmid⟩ | ⟨mid, rfl, hmid⟩
  · cases mid with
    | nil =>
      cases word with
      | nil => exact absurd rfl hword
      | cons letter rest =>
        obtain ⟨rfl, -⟩ := List.cons.inj hmid
        exact absurd List.mem_cons_self hc
    | cons letter mid =>
      obtain ⟨rfl, rfl⟩ := List.cons.inj hmid
      exact .inr ⟨mid, rfl⟩
  · rcases List.append_eq_append_iff.mp hmid with ⟨mid', rfl, hmid'⟩ | ⟨mid', rfl, hmid'⟩
    · exact .inl ⟨mid', rfl, hmid'⟩
    · cases mid' with
      | nil =>
        rw [List.append_nil]
        exact .inl ⟨[], by rw [List.append_nil], hmid'.symm⟩
      | cons letter mid' =>
        obtain ⟨rfl, -⟩ := List.cons.inj hmid'
        exact absurd (List.mem_append_right _ List.mem_cons_self) hc

/-- **Every word that starts references starts one that is in view**, and after the reference comes
something that cannot belong to it. The induction is on how the text is put together: words do not
reach across seams, do not occur in silent texts, and occur in references only at their start. -/
theorem Resolves.occurrence (h : v.Resolves text) (hword : word ∈ keywords)
    (htext : text = before ++ (word ++ after)) :
    ∃ rest behind, v.Refers word rest ∧ after = rest ++ behind
      ∧ behind.head?.all isSeparator = true := by
  induction h generalizing before after with
  | silent hsilent => exact absurd htext (hsilent.ne_of_mem_keywords hword)
  | @refers start rest hrefers =>
    have hstart := hrefers.mem_keywords
    cases before with
    | nil =>
      have hlength : ∀ word ∈ keywords, word.length = 5 := by decide
      rw [List.nil_append] at htext
      obtain ⟨rfl, rfl⟩ := List.append_inj htext
        ((hlength _ hstart).trans (hlength _ hword).symm)
      exact ⟨_, [], hrefers, (List.append_nil _).symm, rfl⟩
    | cons letter before =>
      -- Behind its first letter the reference is silent.
      cases start with
      | nil => exact absurd hstart (by decide)
      | cons first start =>
        obtain ⟨-, htail⟩ := List.cons.inj htext
        exact absurd htail (hrefers.silent_tail.ne_of_mem_keywords hword)
  | @seam first second c hc hfirst hsecond ihfirst ihsecond =>
    have hletters : ∀ word ∈ keywords, word ≠ [] ∧ word.all Char.isAlpha = true := by decide
    obtain ⟨hnonempty, hletters⟩ := hletters word hword
    have hother : c ∉ word := fun hmem => by
      have hc := isAlpha_of_isSeparator hc
      rw [List.all_eq_true.mp hletters c hmem] at hc
      cases hc
    rcases append_cons_eq_append hnonempty hother htext with ⟨mid, hfirst, rfl⟩ | ⟨mid, hsecond⟩
    · obtain ⟨rest, behind, hrefers, rfl, hbehind⟩ := ihfirst hfirst
      refine ⟨rest, behind ++ c :: second, hrefers, List.append_assoc _ _ _, ?_⟩
      cases behind with
      | nil => exact hc
      | cons => exact hbehind
    · exact ihsecond hsecond

/-! ## What is referred to -/

/-- Where two texts are equal, so are the runs that they start with. -/
theorem eq_of_append_run {p : Char → Bool} {run run' rest rest' : List Char}
    (hrun : ∀ c ∈ run, p c = true) (hrun' : ∀ c ∈ run', p c = true)
    (hrest : rest.head?.any p = false) (hrest' : rest'.head?.any p = false)
    (h : run ++ rest = run' ++ rest') : run = run' ∧ rest = rest' := by
  have hlonger : ∀ {run rest rest' mid : List Char}, (∀ c ∈ run ++ mid, p c = true) →
      rest.head?.any p = false → rest = mid ++ rest' → mid = [] := by
    intro run rest rest' mid hrun hrest hmid
    cases mid with
    | nil => rfl
    | cons c mid =>
      rw [hmid, List.cons_append, List.head?_cons, Option.any_some,
        hrun c (List.mem_append_right _ List.mem_cons_self)] at hrest
      cases hrest
  rcases List.append_eq_append_iff.mp h with ⟨mid, rfl, hmid⟩ | ⟨mid, rfl, hmid⟩
  · obtain rfl := hlonger hrun' hrest hmid
    exact ⟨(List.append_nil _).symm, hmid⟩
  · obtain rfl := hlonger hrun hrest' hmid
    exact ⟨List.append_nil _, hmid.symm⟩

/-- The name in a reference is what stands between its first two dots. -/
theorem eq_of_dotted {name behind : List Char} {target : String} (hname : '.' ∉ name)
    (htarget : Plain target)
    (h : '.' :: (name ++ '.' :: after) = '.' :: (target.toList ++ '.' :: rest) ++ behind) :
    String.ofList name = target ∧ after = rest ++ behind := by
  have hrun : ∀ {cs : List Char}, '.' ∉ cs → ∀ c ∈ cs, (c != '.') = true := fun hdot c hc =>
    bne_iff_ne.mpr fun heq => hdot (heq ▸ hc)
  rw [List.cons_append, List.append_assoc, List.cons_append] at h
  obtain ⟨rfl, htail⟩ :=
    eq_of_append_run (hrun hname) (hrun htarget.dot_notMem) rfl rfl (List.cons.inj h).2
  exact ⟨String.ofList_toList, (List.cons.inj htail).2⟩

/-- The job that a text refers to is in view. -/
theorem Resolves.job_of_eq (h : v.Resolves text) {name : List Char} (hname : '.' ∉ name)
    (htext : text = before ++ (['n', 'e', 'e', 'd', 's'] ++ '.' :: (name ++ '.' :: after))) :
    v.jobs (String.ofList name) := by
  obtain ⟨rest, behind, hrefers, heq, -⟩ := h.occurrence (by decide) htext
  cases hrefers with
  | result hplain hjob | jobOutput hplain _ hjob => rwa [(eq_of_dotted hname hplain heq).1]

/-- The step that a text refers to is in view. -/
theorem Resolves.step_of_eq (h : v.Resolves text) {name : List Char} (hname : '.' ∉ name)
    (htext : text = before ++ (['s', 't', 'e', 'p', 's'] ++ '.' :: (name ++ '.' :: after))) :
    v.steps (String.ofList name) := by
  obtain ⟨rest, behind, hrefers, heq, -⟩ := h.occurrence (by decide) htext
  cases hrefers with
  | stepOutput hplain _ hstep => rwa [(eq_of_dotted hname hplain heq).1]

/-- The output of a job that a text refers to is in view. Its name ends where the characters of
names do. -/
theorem Resolves.output_of_eq (h : v.Resolves text) {name key : List Char}
    (hname : '.' ∉ name) (hkey : ∀ c ∈ key, isNameChar c = true)
    (hafter : after.head?.any isNameChar = false)
    (htext : text = before ++ (['n', 'e', 'e', 'd', 's'] ++ '.' :: (name ++ '.' ::
      ("outputs".toList ++ '.' :: (key ++ after))))) :
    v.outputs (String.ofList name) (String.ofList key) := by
  obtain ⟨rest, behind, hrefers, heq, hbehind⟩ := h.occurrence (by decide) htext
  cases hrefers with
  | result hplain =>
    -- A result is not followed by the name of an output.
    have hresult := (eq_of_dotted hname hplain heq).2
    simp at hresult
  | jobOutput hplain hplainKey _ houtput =>
    obtain ⟨hjob, htail⟩ := eq_of_dotted hname hplain heq
    rw [List.append_assoc, List.cons_append] at htail
    have hend : behind.head?.any isNameChar = false := by
      cases behind with
      | nil => rfl
      | cons c behind => exact isNameChar_of_isSeparator hbehind
    obtain ⟨rfl, -⟩ := eq_of_append_run hkey hplainKey.chars hafter hend
      (List.cons.inj (List.append_cancel_left htail)).2
    rwa [hjob, String.ofList_toList]

/-- The names that are found in a text are in view. -/
theorem Resolves.job_of_mem_names (h : v.Resolves text) {name : List Char}
    (hname : name ∈ names text) : v.jobs (String.ofList name) := by
  obtain ⟨hdot, before, after, htext⟩ := exists_of_mem_names hname
  exact h.job_of_eq hdot htext

/-! ## Texts that are put together -/

/-- A silent text that ends with a separator may come before another text. -/
theorem Resolves.silent_append (h : v.Resolves text) (cs : List Char)
    (hcs : Silent cs ∧ cs.getLast?.all isSeparator = true) : v.Resolves (cs ++ text) := by
  rcases List.eq_nil_or_concat cs with rfl | ⟨cs, c, rfl⟩
  · exact h
  · rw [List.concat_eq_append] at hcs ⊢
    rw [List.getLast?_concat] at hcs
    rw [List.append_assoc]
    have hsilent := (silent_append_cons_iff (isAlpha_of_isSeparator hcs.2)).mp hcs.1
    exact .seam hcs.2 (.silent hsilent.1) h

/-- A silent text that starts with a separator may come behind another text. -/
theorem Resolves.append_silent (h : v.Resolves text) (cs : List Char)
    (hcs : Silent cs ∧ cs.head?.all isSeparator = true) : v.Resolves (text ++ cs) := by
  cases cs with
  | nil =>
    rw [List.append_nil]
    exact h
  | cons c cs =>
    exact .seam hcs.2 h (.silent ((silent_cons_iff (isAlpha_of_isSeparator hcs.2)).mp hcs.1))

/-- A silent text between separators may join other texts. -/
theorem resolves_intercalate (cs : List Char) {items : List (List Char)}
    (hcs : Silent cs ∧ cs.head?.any isSeparator = true ∧ cs.getLast?.all isSeparator = true)
    (hitems : ∀ item ∈ items, v.Resolves item) : v.Resolves (cs.intercalate items) := by
  obtain ⟨hsilent, hhead, hlast⟩ := hcs
  cases cs with
  | nil => cases hhead
  | cons c cs =>
    have hsilent : Silent cs := hsilent.of_infix (List.suffix_cons c cs).isInfix
    have hlast : cs.getLast?.all isSeparator = true := by
      cases cs with
      | nil => rfl
      | cons => exact hlast
    induction items with
    | nil => exact .silent silent_nil
    | cons item rest ih =>
      obtain ⟨hitem, hrest⟩ := List.forall_mem_cons.mp hitems
      cases rest with
      | nil => rwa [List.intercalate_singleton]
      | cons next rest =>
        rw [List.intercalate_cons_cons, List.append_assoc, List.cons_append]
        exact .seam hhead hitem ((ih hrest).silent_append cs ⟨hsilent, hlast⟩)

/-! ### Strings

As for silent texts, what is asked of a literal can be decided on its characters. -/

variable {cs : List Char} {s e job output step : String}

theorem resolves_result (hname : Plain job) (hjob : v.jobs job) :
    v.Resolves ("needs." ++ job ++ ".result").toList := by
  have h : v.Resolves (['n', 'e', 'e', 'd', 's'] ++ _) := .refers (.result hname hjob)
  simpa using h

theorem resolves_jobOutput (hname : Plain job) (hkey : Plain output) (hjob : v.jobs job)
    (houtput : v.outputs job output) : v.Resolves (Embedded.jobOutput job output).toList := by
  have h : v.Resolves (['n', 'e', 'e', 'd', 's'] ++ _) :=
    .refers (.jobOutput hname hkey hjob houtput)
  simpa [Embedded.jobOutput] using h

theorem resolves_stepOutput (hname : Plain step) (hkey : Plain output) (hstep : v.steps step) :
    v.Resolves (Embedded.stepOutput step output).toList := by
  have h : v.Resolves (['s', 't', 'e', 'p', 's'] ++ _) := .refers (.stepOutput hname hkey hstep)
  simpa [Embedded.stepOutput] using h

theorem resolves_literal (h : Silent cs) : v.Resolves (String.ofList cs).toList :=
  .silent (silent_literal h)

theorem Resolves.literal_append (hs : v.Resolves s.toList)
    (h : Silent cs ∧ cs.getLast?.all isSeparator = true) :
    v.Resolves (String.ofList cs ++ s).toList := by
  rw [String.toList_append, String.toList_ofList]
  exact hs.silent_append cs h

theorem Resolves.append_literal (hs : v.Resolves s.toList)
    (h : Silent cs ∧ cs.head?.all isSeparator = true) :
    v.Resolves (s ++ String.ofList cs).toList := by
  rw [String.toList_append, String.toList_ofList]
  exact hs.append_silent cs h

theorem resolves_intercalate_literal {items : List String}
    (h : Silent cs ∧ cs.head?.any isSeparator = true ∧ cs.getLast?.all isSeparator = true)
    (hitems : ∀ item ∈ items, v.Resolves item.toList) :
    v.Resolves ((String.ofList cs).intercalate items).toList := by
  rw [String.toList_intercalate, String.toList_ofList]
  refine resolves_intercalate cs h fun item hitem => ?_
  obtain ⟨text, htext, rfl⟩ := List.mem_map.mp hitem
  exact hitems text htext

/-- A literal between separators may come between two texts. -/
theorem Resolves.join (hs : v.Resolves s.toList) (he : v.Resolves e.toList)
    (h : Silent cs ∧ cs.head?.any isSeparator = true ∧ cs.getLast?.all isSeparator = true) :
    v.Resolves (s ++ String.ofList cs ++ e).toList := by
  have hboth : v.Resolves ((String.ofList cs).intercalate [s, e]).toList :=
    resolves_intercalate_literal h
      (List.forall_mem_cons.mpr ⟨hs, List.forall_mem_singleton.mpr he⟩)
  rwa [String.intercalate_cons_cons, String.intercalate_singleton] at hboth

theorem Resolves.embed (h : v.Resolves e.toList) : v.Resolves (Embedded.embed e).toList :=
  (h.literal_append (by decide)).append_literal (by decide)

end View

end AgentGate
