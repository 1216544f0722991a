import AgentGate.Detection.Job
import AgentGate.Proofs.Text.Mentions

/-!
# The script that writes the detection prompt

The built-in instructions are written to a file by a here-document, of which a shell changes nothing
since its delimiter is quoted. They hold the name of the workflow as it is. A here-document ends at
the first line that is the delimiter, and what follows is run: so the instructions are written as a
whole, and nothing of them is run, exactly where the name has no such line in it.

- `Shell.Progress`, `Shell.read`: a script as a shell reads it, line by line.
- `Shell.Progress.foldl_document`, `Shell.delimiter_notMem_document`: what is in a here-document.
- `Shell.Progress.mem_commands_of_delimiter`: what is run behind it.
- `Detection.pieces_setupScript`: the lines of the script.
- `Detection.promptEnd_mem_iff`: the delimiter is a line of the instructions only through the name.
- `Detection.job_writes_prompt_iff`: what the detection job writes and runs.
-/

namespace AgentGate

/-! ## Here-documents -/

namespace Shell

/-- How far a shell is in a script: the lines that it takes for commands, and those that it hands to
a command as they are. -/
structure Progress where
  commands : List String := []
  document : List String := []
  /-- Whether the next line is in a here-document. -/
  isInside : Bool := false
  deriving DecidableEq, Repr

/-- Whether a command has a here-document with the delimiter, in quotes, behind it. -/
def opens (delimiter line : String) : Bool :=
  (" << '" ++ delimiter ++ "'").toList.isSuffixOf line.toList

namespace Progress

/-- Read a line: of the here-document up to its delimiter, or else a command. -/
def step (delimiter : String) (progress : Progress) (line : String) : Progress :=
  if progress.isInside then
    if line = delimiter then { progress with isInside := false }
    else { progress with document := progress.document ++ [line] }
  else
    { progress with
      commands := progress.commands ++ [line], isInside := opens delimiter line }

end Progress

/-- Read a script, in which here-documents have the delimiter. -/
def read (delimiter script : String) : Progress :=
  (Text.pieces '\n' script).foldl (Progress.step delimiter) {}

variable {delimiter script : String} {progress : Progress} {lines : List String}

namespace Progress

/-- Without the delimiter among them, lines are all in the here-document. -/
theorem foldl_document (hinside : progress.isInside = true) (hlines : delimiter ∉ lines) :
    lines.foldl (step delimiter) progress
      = { progress with document := progress.document ++ lines } := by
  induction lines generalizing progress with
  | nil => rw [List.append_nil, List.foldl_nil]
  | cons line rest ih =>
    obtain ⟨hline, hrest⟩ := List.ne_and_not_mem_of_not_mem_cons hlines
    have hstep : step delimiter progress line
        = { progress with document := progress.document ++ [line] } := by
      rw [step, if_pos hinside, if_neg hline.symm]
    rw [List.foldl_cons, hstep]
    have hread := @ih { progress with document := progress.document ++ [line] } hinside hrest
    rwa [List.append_assoc, List.singleton_append] at hread

/-- A command that has been read stays one. -/
theorem commands_subset_foldl (delimiter : String) (lines : List String) (progress : Progress) :
    progress.commands ⊆ (lines.foldl (step delimiter) progress).commands := by
  induction lines generalizing progress with
  | nil => exact List.Subset.refl _
  | cons line rest ih =>
    refine List.Subset.trans ?_ (ih (step delimiter progress line))
    rw [step]
    split
    · split <;> exact List.Subset.refl _
    · exact List.subset_append_left _ _

/-- The line behind the first delimiter is a command. -/
theorem mem_commands_of_delimiter {before rest : List String} {line : String}
    (hinside : progress.isInside = true) (hbefore : delimiter ∉ before) :
    line ∈ ((before ++ delimiter :: line :: rest).foldl (step delimiter) progress).commands := by
  rw [List.foldl_append, foldl_document hinside hbefore, List.foldl_cons, List.foldl_cons]
  refine commands_subset_foldl delimiter rest _ ?_
  simp [step, hinside]

/-- A step puts no delimiter into the here-document. -/
theorem delimiter_notMem_step (line : String) (h : delimiter ∉ progress.document) :
    delimiter ∉ (step delimiter progress line).document := by
  rw [step]
  split
  · split
    case isTrue => exact h
    case isFalse hline =>
      rw [List.mem_append, List.mem_singleton]
      exact not_or.mpr ⟨h, fun heq => hline heq.symm⟩
  · exact h

theorem delimiter_notMem_foldl (lines : List String) (h : delimiter ∉ progress.document) :
    delimiter ∉ (lines.foldl (step delimiter) progress).document := by
  induction lines generalizing progress with
  | nil => exact h
  | cons line rest ih => exact ih (delimiter_notMem_step line h)

end Progress

/-- In no script is the delimiter a line of a here-document. -/
theorem delimiter_notMem_document (delimiter script : String) :
    delimiter ∉ (read delimiter script).document :=
  Progress.delimiter_notMem_foldl _ List.not_mem_nil

end Shell

/-! ## The lines of the script -/

namespace Detection

/-- The line that makes room for the prompt. -/
def makeRoom : String := "mkdir -p " ++ directory ++ "/prompts"

/-- The line that opens the here-document. -/
def writePrompt : String := "cat > " ++ promptPath ++ " << '" ++ promptEnd ++ "'"

/-- The line that tells the engine where the prompt is. -/
def exportPrompt : String := "echo \"GH_AW_PROMPT=" ++ promptPath ++ "\" >> \"$GITHUB_ENV\""

variable {name : String}

/-- The script consists of the lines of the instructions, with fixed ones around them. -/
theorem pieces_setupScript (name : String) : Text.pieces '\n' (setupScript name none)
    = [makeRoom, writePrompt] ++ Text.pieces '\n' (prompt name) ++ [promptEnd, exportPrompt] := by
  have hlines : setupScript name none
      = "\n".intercalate [makeRoom, writePrompt, prompt name, promptEnd, exportPrompt] := rfl
  have hfixed : ∀ line ∈ [makeRoom, writePrompt, promptEnd, exportPrompt], '\n' ∉ line.toList := by
    decide +kernel
  obtain ⟨hroom, hfixed⟩ := List.forall_mem_cons.mp hfixed
  obtain ⟨hwrite, hfixed⟩ := List.forall_mem_cons.mp hfixed
  obtain ⟨hend, hfixed⟩ := List.forall_mem_cons.mp hfixed
  have hexport := hfixed exportPrompt List.mem_cons_self
  rw [hlines, Text.pieces_intercalate (c := '\n') String.toList_ofList (List.cons_ne_nil _ _)]
  simp only [List.flatMap_cons, List.flatMap_nil, Text.pieces_eq_singleton hroom,
    Text.pieces_eq_singleton hwrite, Text.pieces_eq_singleton hend,
    Text.pieces_eq_singleton hexport, List.cons_append, List.nil_append, List.append_nil]

theorem pieces_prompt (name : String) :
    Text.pieces '\n' (prompt name) = (promptLines name).flatMap (Text.pieces '\n') :=
  Text.pieces_intercalate String.toList_ofList (List.cons_ne_nil _ _)

/-- The line of the instructions with the name of the workflow. -/
def nameLine (name : String) : String :=
  "\"" ++ name ++ "\" workflow, before any of it is applied to the repository."

/-- A text of one line that ends otherwise than the delimiter. -/
def IsOtherLine (s : String) : Prop :=
  '\n' ∉ s.toList ∧ s.toList.getLast? ≠ some 'F'

theorem IsOtherLine.promptEnd_notMem {s : String} (h : IsOtherLine s) :
    promptEnd ∉ Text.pieces '\n' s := by
  rw [Text.pieces_eq_singleton h.1, List.mem_singleton]
  rintro rfl
  exact h.2 (by decide)

theorem isOtherLine_literal {cs : List Char} (h : '\n' ∉ cs ∧ cs.getLast? ≠ some 'F') :
    IsOtherLine (String.ofList cs) := by
  rwa [IsOtherLine, String.toList_ofList]

theorem isOtherLine_append_literal {s : String} {cs : List Char} (hs : '\n' ∉ s.toList)
    (h : '\n' ∉ cs ∧ cs ≠ [] ∧ cs.getLast? ≠ some 'F') : IsOtherLine (s ++ String.ofList cs) := by
  obtain ⟨hline, hne, hlast⟩ := h
  rw [IsOtherLine, String.toList_append, String.toList_ofList, List.mem_append, not_or,
    List.getLast?_append, List.getLast?_eq_some_getLast hne, Option.some_or]
  rw [List.getLast?_eq_some_getLast hne] at hlast
  exact ⟨⟨hs, hline⟩, hlast⟩

theorem newline_notMem_literal_append {s : String} {cs : List Char} (h : '\n' ∉ cs)
    (hs : '\n' ∉ s.toList) : '\n' ∉ (String.ofList cs ++ s).toList := by
  rw [String.toList_append, String.toList_ofList, List.mem_append]
  exact not_or.mpr ⟨h, hs⟩

/-- No line of the instructions can be taken for the delimiter, unless it is that with the name. -/
theorem eq_nameLine_or_isOtherLine :
    ∀ line ∈ promptLines name, line = nameLine name ∨ IsOtherLine line := by
  have houtput : IsOtherLine ("- Agent output (JSON lines, one safe output per line): `"
      ++ outputPath ++ "`") :=
    isOtherLine_append_literal (newline_notMem_literal_append (by decide) (by decide)) (by decide)
  have hpatch : IsOtherLine ("- Code changes proposed by the agent (may be absent): `"
      ++ patchPath ++ "`") :=
    isOtherLine_append_literal (newline_notMem_literal_append (by decide) (by decide)) (by decide)
  have hverdict : IsOtherLine
      ("THREAT_DETECTION_RESULT:\x7b\"prompt_injection\":false,\"secret_leak\":false,"
        ++ "\"malicious_patch\":false,\"reasons\":[]\x7d") :=
    isOtherLine_append_literal (by decide) (by decide)
  simp only [promptLines, List.forall_mem_cons, List.not_mem_nil, IsEmpty.forall_iff,
    implies_true, and_true, houtput, hpatch, hverdict, or_true, true_and]
  and_intros
  all_goals first | exact .inl rfl | exact .inr (isOtherLine_literal (by decide))

/-- Only the line with the name can have the delimiter among its lines. -/
theorem promptEnd_mem_nameLine_iff : promptEnd ∈ Text.pieces '\n' (prompt name)
    ↔ promptEnd ∈ Text.pieces '\n' (nameLine name) := by
  rw [pieces_prompt, List.mem_flatMap]
  constructor
  · rintro ⟨line, hline, hmem⟩
    rcases eq_nameLine_or_isOtherLine line hline with rfl | hother
    · exact hmem
    · exact absurd hmem hother.promptEnd_notMem
  · intro hmem
    exact ⟨nameLine name, by simp [promptLines, nameLine], hmem⟩

/-- The delimiter is a line of the instructions exactly where the name has it as a line between two
others: a quote stands at either end of the name. -/
theorem promptEnd_mem_iff : promptEnd ∈ Text.pieces '\n' (prompt name)
    ↔ Text.Mentions ("\n" ++ promptEnd ++ "\n") name := by
  have hword : '\n' :: (promptEnd.toList ++ ['\n']) = ("\n" ++ promptEnd ++ "\n").toList := by
    decide
  have hline : '\n' :: ((nameLine name).toList ++ ['\n']) = ['\n'] ++ '"' :: (name.toList
      ++ '"' :: (" workflow, before any of it is applied to the repository.".toList
        ++ ['\n'])) := by
    simp [nameLine, String.toList_append]
  have hquote : '"' ∉ ("\n" ++ promptEnd ++ "\n").toList := by
    decide
  -- Neither side of the quotes has the word, so that it could only be in the name.
  have hbefore : ¬("\n" ++ promptEnd ++ "\n").toList <:+: ['\n'] := by
    rw [← Text.occursIn_iff]
    decide
  have hbehind : ¬("\n" ++ promptEnd ++ "\n").toList
      <:+: " workflow, before any of it is applied to the repository.".toList ++ ['\n'] := by
    rw [← Text.occursIn_iff]
    decide
  rw [promptEnd_mem_nameLine_iff, Text.mem_pieces_iff (by decide), hword, hline,
    Text.infix_append_cons_iff hquote, or_iff_right hbefore, Text.infix_append_cons_iff hquote,
    or_iff_left hbehind, Text.Mentions]

/-! ## What the job writes and runs -/

/-- The script as it is meant: the instructions are all in the here-document, and nothing else. -/
def setupReading (name : String) : Shell.Progress where
  commands := [makeRoom, writePrompt, exportPrompt]
  document := Text.pieces '\n' (prompt name)

/-- The first lines of the script open the here-document. -/
theorem foldl_opening : [makeRoom, writePrompt].foldl (Shell.Progress.step promptEnd) {}
    = { commands := [makeRoom, writePrompt], isInside := true } := by
  decide +kernel

/-- The script is read as it is meant exactly where the delimiter is no line of the instructions. -/
theorem read_setupScript_iff : Shell.read promptEnd (setupScript name none) = setupReading name
    ↔ promptEnd ∉ Text.pieces '\n' (prompt name) := by
  constructor
  · intro hread hmem
    have hdocument := Shell.delimiter_notMem_document promptEnd (setupScript name none)
    rw [hread] at hdocument
    dsimp only [setupReading] at hdocument
    exact hdocument hmem
  · intro hmem
    have hopens : Shell.opens promptEnd exportPrompt = false := by
      decide +kernel
    rw [Shell.read, pieces_setupScript, List.foldl_append, List.foldl_append, foldl_opening,
      Shell.Progress.foldl_document rfl hmem]
    simp [Shell.Progress.step, hopens, setupReading]

/-- What stands in the instructions behind the first delimiter is run. -/
theorem mem_commands_setupScript {before after : List String} {line : String}
    (h : Text.pieces '\n' (prompt name) = before ++ promptEnd :: line :: after)
    (hbefore : promptEnd ∉ before) :
    line ∈ (Shell.read promptEnd (setupScript name none)).commands := by
  rw [Shell.read, pieces_setupScript, h, List.append_assoc, List.foldl_append, foldl_opening,
    List.append_assoc, List.cons_append, List.cons_append]
  exact Shell.Progress.mem_commands_of_delimiter rfl hbefore

/-- The step that prepares the run of the engine is in the job, with the script for its workflow. -/
theorem exists_setup_step (w : Workflow) (outputs : SafeOutputs) (engine : Engine)
    (runsOn : String) (hcustom : customPrompt? outputs = none) :
    ∃ step ∈ (job w outputs engine runsOn).steps, step.name = some "Setup threat detection"
      ∧ step.run = some (setupScript w.name none) := by
  refine ⟨(Step.ofScript "Setup threat detection" (setupScript w.name none)).withEnv
    "GH_AW_WORKFLOW_NAME" w.name, ?_, rfl, rfl⟩
  simp [job, preparation, hcustom]

/-- **What the detection job writes and runs.** Where no instructions are given in place of the
built-in ones, a step of the job runs the script that writes these. A shell writes all their lines
to the file, and runs three lines that hold nothing of the workflow, exactly where no line of the
instructions is the delimiter; and that is so exactly where the name of the workflow does not have
the delimiter as a line between two others. Where it does, the line behind is run. -/
theorem job_writes_prompt_iff (w : Workflow) (outputs : SafeOutputs) (engine : Engine)
    (runsOn : String) (hcustom : customPrompt? outputs = none) :
    (∃ step ∈ (job w outputs engine runsOn).steps, step.name = some "Setup threat detection"
      ∧ step.run = some (setupScript w.name none))
    ∧ "\n".intercalate (Text.pieces '\n' (prompt w.name)) = prompt w.name
    ∧ (Shell.read promptEnd (setupScript w.name none)
        = { commands := [makeRoom, writePrompt, exportPrompt]
            document := Text.pieces '\n' (prompt w.name) }
      ↔ promptEnd ∉ Text.pieces '\n' (prompt w.name))
    ∧ (promptEnd ∉ Text.pieces '\n' (prompt w.name)
      ↔ ¬Text.Mentions ("\n" ++ promptEnd ++ "\n") w.name)
    ∧ ∀ before line after,
      Text.pieces '\n' (prompt w.name) = before ++ promptEnd :: line :: after →
      promptEnd ∉ before → line ∈ (Shell.read promptEnd (setupScript w.name none)).commands := by
  refine ⟨exists_setup_step w outputs engine runsOn hcustom,
    Text.intercalate_pieces String.toList_ofList _, read_setupScript_iff,
    not_congr promptEnd_mem_iff, ?_⟩
  intro before line after hlines hbefore
  exact mem_commands_setupScript hlines hbefore

/-- A name that speaks of the delimiter, but has it as no line. -/
def quarterly : Workflow :=
  { name := "Quarterly\n(no THREAT_DETECTION_EOF in it)" }

theorem quarterly_written : ∃ step ∈ (job quarterly {} ⟨Engine.defaultCommand⟩ "large").steps,
    step.run = some (setupScript quarterly.name none)
      ∧ Shell.read promptEnd (setupScript quarterly.name none) = setupReading quarterly.name := by
  obtain ⟨⟨step, hstep, -, hrun⟩, -, hread, hmentions, -⟩ :=
    job_writes_prompt_iff quarterly {} ⟨Engine.defaultCommand⟩ "large" rfl
  have hfree : ¬Text.Mentions ("\n" ++ promptEnd ++ "\n") quarterly.name := by
    decide +kernel
  exact ⟨step, hstep, hrun, hread.mpr (hmentions.mpr hfree)⟩

/-- A name with the delimiter as a line. -/
def unvetted : Workflow :=
  { name := "Report\nTHREAT_DETECTION_EOF\n./unvetted.sh #" }

/-- The instructions end at the delimiter in the name, and what the name has behind it is run. -/
theorem unvetted_run : ∃ step ∈ (job unvetted {} ⟨Engine.defaultCommand⟩ "large").steps,
    step.run = some (setupScript unvetted.name none)
      ∧ promptEnd ∈ Text.pieces '\n' (prompt unvetted.name)
      ∧ Shell.read promptEnd (setupScript unvetted.name none) ≠ setupReading unvetted.name
      ∧ "./unvetted.sh #\" workflow, before any of it is applied to the repository."
        ∈ (Shell.read promptEnd (setupScript unvetted.name none)).commands := by
  obtain ⟨step, hstep, -, hrun⟩ :=
    exists_setup_step unvetted {} ⟨Engine.defaultCommand⟩ "large" rfl
  have hname : Text.pieces '\n' (nameLine unvetted.name) = ["\"Report", promptEnd,
      "./unvetted.sh #\" workflow, before any of it is applied to the repository."] := by
    decide +kernel
  have hbefore :
      promptEnd ∉ ((promptLines "").take 3).flatMap (Text.pieces '\n') ++ ["\"Report"] := by
    decide +kernel
  have hlines : Text.pieces '\n' (prompt unvetted.name)
      = (((promptLines "").take 3).flatMap (Text.pieces '\n') ++ ["\"Report"]) ++ promptEnd
        :: "./unvetted.sh #\" workflow, before any of it is applied to the repository."
        :: ((promptLines "").drop 4).flatMap (Text.pieces '\n') := by
    have hsplit : promptLines unvetted.name = (promptLines "").take 3
        ++ nameLine unvetted.name :: (promptLines "").drop 4 := rfl
    rw [pieces_prompt, hsplit, List.flatMap_append, List.flatMap_cons, hname, List.append_assoc]
    rfl
  have hmem : promptEnd ∈ Text.pieces '\n' (prompt unvetted.name) := by
    rw [hlines]
    exact List.mem_append_right _ List.mem_cons_self
  exact ⟨step, hstep, hrun, hmem, fun hread => read_setupScript_iff.mp hread hmem,
    mem_commands_setupScript hlines hbefore⟩

end Detection

end AgentGate
