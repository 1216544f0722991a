import AgentGate.Proofs.Json.Reading
import AgentGate.Proofs.Json.Token
import AgentGate.Proofs.Schema.Place
import AgentGate.Proofs.Text
import AgentGate.Proofs.Text.Blank
import AgentGate.Workflow.Document

/-!
# Targets as numbers and as texts

The target of an output type is given as a number or as a text, and a number may be given as a text
as well, with blanks around it. In both spellings it is read as the same target. The schema holds
only the first of them to be at least one.

- `Target.ofJson_int`, `Target.ofJson_text`: both spellings of a number.
- `Target.ofJson_text_text`: a target is read back from its text.
- `Schema.leads_target`: where the schema checks a target.
- `Workflow.target_of_ofJson`: where a workflow keeps it.
- `Workflow.target_spellings`: documents that spell a target in the two ways.
-/

namespace AgentGate

open Json

variable {type : OutputType} {key text : String} {n : Nat}

/-! ## Both spellings -/

theorem nat64OfText?_toString (hn : n < Nat.pow 2 64) : nat64OfText? (toString n) = some n := by
  rw [nat64OfText?, Nat.toString_eq_repr, Nat.toList_repr]
  simp only [Option.filter_eq_some_iff, decide_eq_true_eq]
  refine ⟨?_, hn⟩
  split
  case h_1 rest heq =>
    -- No digit is a plus sign.
    have hplus : '+' ∈ Nat.toDigits 10 n := heq ▸ List.mem_cons_self
    exact absurd (List.all_eq_true.mp (all_isDigit_toDigits n) _ hplus) (by decide)
  case h_2 => exact decimalValue?_toDigits n

theorem trim_toString : Text.trim (toString n) = toString n :=
  Text.trim_eq_self fun _ hc => Text.isBlank_of_isDigit (Text.isDigit_of_mem_toString hc)

theorem toString_ne_empty : toString n ≠ "" := by
  intro hempty
  rw [Nat.toString_eq_repr, ← String.toList_eq_nil_iff, Nat.toList_repr] at hempty
  exact Nat.toDigits_ne_nil hempty

namespace Target

theorem ofText?_eq_number (hn : n < Nat.pow 2 64) (htext : Text.trim text = toString n) :
    ofText? text = some (.number n) := by
  rw [ofText?, htext]
  split
  case h_1 heq => exact absurd (Text.isDigit_of_mem_toString
      (show 't' ∈ (toString n).toList by rw [heq]; decide)) (by decide)
  case h_2 heq => exact absurd (Text.isDigit_of_mem_toString
      (show '*' ∈ (toString n).toList by rw [heq]; decide)) (by decide)
  case h_3 => rw [nat64OfText?_toString hn, Option.map_some]

theorem ofJson_int (hn : n < Nat.pow 2 64) : ofJson (.int n) = .ok (.number n) := by
  have hbounds : 0 ≤ (n : Int) ∧ (n : Int) < Int.pow 2 64 := by
    have hpow : Int.pow 2 64 = ((Nat.pow 2 64 : Nat) : Int) := by decide
    exact ⟨Int.natCast_nonneg n, by omega⟩
  rw [ofJson, readNat64, readNat, if_pos hbounds]
  rfl

theorem ofJson_text (hn : n < Nat.pow 2 64) (htext : Text.trim text = toString n) :
    ofJson (.text text) = .ok (.number n) := by
  rw [ofJson, ofText?_eq_number hn htext]

/-- A target is read back from its text, if it has at most 64 bits. -/
theorem ofJson_text_text {target : Target} (h : ∀ n, target = .number n → n < Nat.pow 2 64) :
    ofJson (.text target.text) = .ok target := by
  cases target with
  | triggering => rfl
  | any => rfl
  | number n => exact ofJson_text (h n rfl) trim_toString

end Target

/-! ## The place of a target -/

/-- The key of an output type is its own, or the shorter one for review comments. -/
theorem SafeOutputs.key_cases (hkey : shape.field? key = some type.settingKey) :
    key = type.settingKey
      ∨ key = "create-pr-review-comment" ∧ type.settingKey = "create-pull-request-review-comment" := by
  rw [Shape.field?] at hkey
  split at hkey
  case isTrue => exact .inl (Option.some.inj hkey)
  case isFalse =>
    obtain ⟨entry, hentry, hfield⟩ := Option.map_eq_some_iff.mp hkey
    obtain rfl := List.mem_singleton.mp (List.mem_of_find?_eq_some hentry)
    have hname := List.find?_some hentry
    simp only [decide_eq_true_eq] at hname
    exact .inr ⟨hname.symm, hfield.symm⟩

namespace Schema

theorem leads_target (hkey : SafeOutputs.shape.field? key = some type.settingKey) :
    Leads target workflow ["safe-outputs", key, "target"] := by
  have hsettings : Leads target outputType ["target"] := .flagOr (.field _ (fun _ => rfl) .here)
  have houtputs : Leads target safeOutputs [key, "target"] := by
    refine .field _ (fun value => ?_) hsettings
    rcases SafeOutputs.key_cases hkey with rfl | ⟨rfl, -⟩
    · cases type <;> rfl
    · rfl
  exact .field _ (fun _ => rfl) houtputs

/-- As a number a target is at least one; as a text it may be anything. -/
theorem accepts_target_int : target.accepts (.int n) = true ↔ n ≠ 0 := by
  have hbelow : isBelow 1 (.int n) = decide (n = 0) := by
    rw [isBelow]
    exact decide_eq_decide.mpr (by omega)
  rw [accepts, target, violations, validOptions, validOptions, validOptions, violations,
    integerViolations, hbelow]
  by_cases hzero : n = 0
  · rw [decide_eq_true hzero]
    exact iff_of_false Bool.false_ne_true (not_not_intro hzero)
  · rw [decide_eq_false hzero]
    exact iff_of_true rfl hzero

theorem accepts_target_text (hempty : text ≠ "") : target.accepts (.text text) = true := by
  have hlength : ¬text.length < 1 := by
    rwa [Nat.lt_one_iff, String.length_eq_zero_iff]
  rw [accepts, target, violations, validOptions, validOptions, validOptions, someText, violations,
    TextRule.violations, if_neg hlength]
  rfl

end Schema

/-! ## What is read of it -/

/-- The target that a workflow has for an output type. -/
def Workflow.target? (w : Workflow) (type : OutputType) : Option Target := do
  let outputs ← w.safeOutputs
  let settings ← outputs.settings? type
  settings.target

variable {value value' document document' : Json} {before after : List (String × Json)}
  {members members' : List (String × Json)} {found : Target}

namespace OutputSettings

theorem field?_target : shape.field? "target" = some "target" := rfl

theorem setField_target (settings : OutputSettings) (value : Json) :
    settings.setField "target" value
      = (optional Target.ofJson value).map fun v => { settings with target := v } := rfl

theorem target_of_setField_ne {settings settings' : OutputSettings} {other : String}
    (hother : other ≠ "target") (h : settings.setField other value = .ok settings') :
    settings'.target = settings.target := by
  unfold OutputSettings.setField at h
  split at h
  case h_3 => exact absurd rfl hother
  case h_21 =>
    cases h
    rfl
  all_goals
    obtain ⟨_, -, rfl⟩ := map_eq_ok_iff.mp h
    rfl

theorem ofJson_congr (h : optional Target.ofJson value = optional Target.ofJson value') :
    ofJson (.object (before ++ ("target", value) :: after))
      = ofJson (.object (before ++ ("target", value') :: after)) :=
  record_congr field?_target fun settings => by rw [setField_target, setField_target, h]

theorem target_of_ofJson {settings : OutputSettings}
    (h : ofJson (.object (before ++ ("target", value) :: after)) = .ok settings) :
    optional Target.ofJson value = .ok settings.target := by
  obtain ⟨given, settings', hset, htarget⟩ :=
    record_keeps field?_target (fun _ _ _ _ => target_of_setField_ne) h
  obtain ⟨found, hfound, rfl⟩ := map_eq_ok_iff.mp ((setField_target given value).symm.trans hset)
  rw [hfound, htarget]

end OutputSettings

namespace SafeOutputs

theorem setField_settingKey (outputs : SafeOutputs) (type : OutputType) (value : Json) :
    outputs.setField type.settingKey value
      = (Switch.ofJson {} OutputSettings.ofJson value).map (outputs.setType type) := by
  cases type <;> rfl

/-- Settings in an object turn a type on. -/
theorem switch_object : Switch.ofJson {} OutputSettings.ofJson (.object members)
    = ((OutputSettings.ofJson (.object members)).map .enabled).mapError
        fun _ => .noVariant "Raw" := by
  rw [Switch.ofJson, choice]
  cases OutputSettings.ofJson (.object members) with
  | error => rfl
  | ok settings => rfl

theorem settings?_of_setField_ne {outputs outputs' : SafeOutputs} {other : String}
    (hother : other ≠ type.settingKey) (h : outputs.setField other value = .ok outputs') :
    outputs'.settings? type = outputs.settings? type := by
  unfold SafeOutputs.setField at h
  split at h
  case h_9 =>
    split at h
    case h_1 type' hfind =>
      have hkey := List.find?_some hfind
      simp only [decide_eq_true_eq] at hkey
      obtain ⟨switch, -, rfl⟩ := map_eq_ok_iff.mp h
      have hne : type ≠ type' := by
        rintro rfl
        exact hother hkey.symm
      exact congrArg Switch.settings? (if_neg hne)
    case h_2 =>
      cases h
      rfl
  all_goals
    obtain ⟨_, -, rfl⟩ := map_eq_ok_iff.mp h
    rfl

theorem ofJson_congr (hkey : shape.field? key = some type.settingKey)
    (h : OutputSettings.ofJson (.object members) = OutputSettings.ofJson (.object members')) :
    ofJson (.object (before ++ (key, .object members) :: after))
      = ofJson (.object (before ++ (key, .object members') :: after)) :=
  record_congr hkey fun outputs => by
    rw [setField_settingKey, setField_settingKey, switch_object, switch_object, h]

theorem settings?_of_ofJson {outputs : SafeOutputs}
    (hkey : shape.field? key = some type.settingKey)
    (h : ofJson (.object (before ++ (key, .object members) :: after)) = .ok outputs) :
    ∃ settings, OutputSettings.ofJson (.object members) = .ok settings
      ∧ outputs.settings? type = some settings := by
  obtain ⟨given, outputs', hset, hsettings⟩ :=
    record_keeps hkey (fun _ _ _ _ => settings?_of_setField_ne) h
  rw [setField_settingKey, switch_object, map_eq_ok_iff] at hset
  obtain ⟨switch, hswitch, rfl⟩ := hset
  obtain ⟨settings, hread, rfl⟩ := map_eq_ok_iff.mp (mapError_eq_ok_iff.mp hswitch)
  refine ⟨settings, hread, hsettings.trans ?_⟩
  exact congrArg Switch.settings? (if_pos rfl)

end SafeOutputs

namespace Workflow

theorem field?_safeOutputs : shape.field? "safe-outputs" = some "safe-outputs" := rfl

theorem setField_safeOutputs (w : Workflow) : w.setField "safe-outputs" (.object members)
    = (SafeOutputs.ofJson (.object members)).map fun v => { w with safeOutputs := some v } := by
  show ((SafeOutputs.ofJson (.object members)).map some).map _ = _
  cases SafeOutputs.ofJson (.object members) with
  | error => rfl
  | ok outputs => rfl

theorem safeOutputs_of_setField_ne {w w' : Workflow} {other : String}
    (hother : other ≠ "safe-outputs") (h : w.setField other value = .ok w') :
    w'.safeOutputs = w.safeOutputs := by
  unfold Workflow.setField at h
  split at h
  case h_16 => exact absurd rfl hother
  case h_17 =>
    cases h
    rfl
  all_goals
    obtain ⟨_, -, rfl⟩ := map_eq_ok_iff.mp h
    rfl

/-- A target makes no difference to what is read of a document but for what is read of it. -/
theorem ofJson_congr (hkey : SafeOutputs.shape.field? key = some type.settingKey)
    (hdiffer : DifferAt value value' ["safe-outputs", key, "target"] document document')
    (h : optional Target.ofJson value = optional Target.ofJson value') :
    ofJson document = ofJson document' := by
  obtain ⟨before, after, _, _, rfl, rfl, houtputs⟩ := hdiffer.exists_member
  obtain ⟨before', after', _, _, rfl, rfl, hsettings⟩ := houtputs.exists_member
  obtain ⟨before'', after'', _, _, rfl, rfl, htarget⟩ := hsettings.exists_member
  cases htarget
  refine record_congr field?_safeOutputs fun w => ?_
  rw [setField_safeOutputs, setField_safeOutputs,
    SafeOutputs.ofJson_congr hkey (OutputSettings.ofJson_congr h)]

/-- What is read of a target is what the workflow has. -/
theorem target?_of_ofJson {w : Workflow} (hkey : SafeOutputs.shape.field? key = some type.settingKey)
    (hdiffer : DifferAt value value' ["safe-outputs", key, "target"] document document')
    (h : ofJson document = .ok w) : optional Target.ofJson value = .ok (w.target? type) := by
  obtain ⟨before, after, _, _, rfl, rfl, houtputs⟩ := hdiffer.exists_member
  obtain ⟨before', after', _, _, rfl, rfl, hsettings⟩ := houtputs.exists_member
  obtain ⟨before'', after'', _, _, rfl, rfl, htarget⟩ := hsettings.exists_member
  cases htarget
  obtain ⟨given, w', hset, hkept⟩ :=
    record_keeps field?_safeOutputs (fun _ _ _ _ => safeOutputs_of_setField_ne) h
  rw [setField_safeOutputs] at hset
  obtain ⟨outputs, hread, rfl⟩ := map_eq_ok_iff.mp hset
  obtain ⟨settings, hsettings, hswitch⟩ := SafeOutputs.settings?_of_ofJson hkey hread
  rw [target?, hkept]
  show _ = Except.ok ((outputs.settings? type).bind _)
  rw [hswitch]
  exact OutputSettings.target_of_ofJson hsettings

/-! ## Documents in two spellings -/

theorem ofValidJson_eq_ok_iff {w : Workflow} : ofValidJson document = .ok w
    ↔ Schema.workflow.accepts document = true ∧ ofJson document = .ok w := by
  have hreport : Schema.workflow.report document = []
      ↔ Schema.workflow.accepts document = true := by
    rw [Schema.accepts, List.isEmpty_iff, Schema.report, ← List.length_eq_zero_iff,
      List.length_mergeSort, List.length_map, List.length_eq_zero_iff]
  rw [ofValidJson, ← hreport]
  split
  case h_1 heq => rw [mapError_eq_ok_iff, and_iff_right heq]
  case h_2 hne =>
    constructor
    · intro h
      cases h
    · intro h
      exact absurd h.1 hne

/-- The schema takes a target as a number if it takes it as a text, unless the number is zero. -/
theorem accepts_spellings (hkey : SafeOutputs.shape.field? key = some type.settingKey)
    (hempty : text ≠ "")
    (hdiffer : DifferAt (.int n) (.text text) ["safe-outputs", key, "target"] document document') :
    Schema.workflow.accepts document = true
      ↔ n ≠ 0 ∧ Schema.workflow.accepts document' = true := by
  have hleads := Schema.leads_target hkey
  constructor
  · intro hvalid
    refine ⟨Schema.accepts_target_int.mp (hleads.accepts_leaf hdiffer hvalid), ?_⟩
    exact hleads.accepts_of_differAt hdiffer (Schema.accepts_target_text hempty) hvalid
  · rintro ⟨hzero, hvalid⟩
    exact hleads.accepts_of_differAt hdiffer.symm (Schema.accepts_target_int.mpr hzero) hvalid

/-- **Both spellings of a target.** Take two documents that differ in the target of one output type
alone, which is a number of less than 64 bits in the one and its decimal text, perhaps with blanks
around it, in the other. They are both refused, or both read as the same workflow, in which the type
has that number as its target; only zero is refused as a number and may be read as a text. And every
target of 64 bits is read back from its text. -/
theorem target_spellings (hkey : SafeOutputs.shape.field? key = some type.settingKey)
    (hn : n < 2 ^ 63) {before after : String} (hbefore : Text.allBlank before = true)
    (hafter : Text.allBlank after = true)
    (hdiffer : DifferAt (.int n) (.text (before ++ toString n ++ after))
      ["safe-outputs", key, "target"] document document') :
    (∀ w, ofValidJson document = .ok w ↔ n ≠ 0 ∧ ofValidJson document' = .ok w)
      ∧ (∀ w, ofValidJson document' = .ok w → w.target? type = some (.number n))
      ∧ ∀ target : Target, (∀ n, target = .number n → n < 2 ^ 64) →
        Target.ofJson (.text target.text) = .ok target := by
  have hlt : n < Nat.pow 2 64 := by
    have hpow : Nat.pow 2 64 = 2 * 2 ^ 63 := by decide
    omega
  have htrim : Text.trim (before ++ toString n ++ after) = toString n :=
    (Text.trim_surround hbefore hafter _).trans trim_toString
  have hempty : before ++ toString n ++ after ≠ "" := by
    intro heq
    rw [heq] at htrim
    exact toString_ne_empty htrim.symm
  have hnumber : optional Target.ofJson (.int n) = .ok (some (.number n)) := by
    rw [optional_of_ne (by nofun), Target.ofJson_int hlt]
    rfl
  have htext : optional Target.ofJson (.text (before ++ toString n ++ after))
      = .ok (some (.number n)) := by
    rw [optional_of_ne (by nofun), Target.ofJson_text hlt htrim]
    rfl
  refine ⟨fun w => ?_, fun w hw => ?_, fun target htarget => Target.ofJson_text_text htarget⟩
  · rw [ofValidJson_eq_ok_iff, ofValidJson_eq_ok_iff, accepts_spellings hkey hempty hdiffer,
      ofJson_congr hkey hdiffer (hnumber.trans htext.symm), and_assoc]
  · obtain ⟨-, hread⟩ := ofValidJson_eq_ok_iff.mp hw
    have hfound := target?_of_ofJson hkey hdiffer.symm hread
    exact (Except.ok.inj (htext.symm.trans hfound)).symm

/-- A workflow with comments on a target. -/
def commentDocument (target : Json) : Json :=
  .object [("name", .text "Triage"),
    ("safe-outputs", .object [("add-comment", .object [("target", target)])])]

theorem comment_target_spellings : ∃ w, ofValidJson (commentDocument (.int 42)) = .ok w
    ∧ ofValidJson (commentDocument (.text " 42\t")) = .ok w
    ∧ w.target? .addComment = some (.number 42) := by
  have hkey : SafeOutputs.shape.field? "add-comment" = some OutputType.addComment.settingKey := rfl
  have hdiffer : DifferAt (.int (42 : Nat)) (.text (" " ++ toString 42 ++ "\t"))
      ["safe-outputs", "add-comment", "target"] (commentDocument (.int 42))
      (commentDocument (.text " 42\t")) :=
    .member _ [_] [] (.member _ [] [] (.member _ [] [] .here))
  obtain ⟨hboth, htarget, -⟩ := target_spellings hkey (by decide) (by decide) (by decide) hdiffer
  obtain ⟨w, hread⟩ := eq_ok_of_isOk
    (by decide +kernel : (ofValidJson (commentDocument (.int 42))).isOk = true)
  obtain ⟨-, htext⟩ := (hboth w).mp hread
  exact ⟨w, hread, htext, htarget w htext⟩

/-- The same workflow in TOML, with the target as it stands there. -/
def commentText (target : String) : String :=
  "name = 'Triage'\n[safe-outputs]\nadd-comment = \x7b target = " ++ target ++ " \x7d\n"

theorem comment_target_zero : (¬∃ w, ofDocument (commentText "0") = .ok w)
    ∧ ∃ w, ofDocument (commentText "'0'") = .ok w ∧ w.target? .addComment = some (.number 0) := by
  constructor
  · rintro ⟨w, hread⟩
    have hrefused : (ofDocument (commentText "0")).isOk = false := by decide +kernel
    rw [hread] at hrefused
    cases hrefused
  · have htarget : ((ofDocument (commentText "'0'")).map fun w => w.target? .addComment).toOption
        = some (some (.number 0)) := by
      decide +kernel
    cases hread : ofDocument (commentText "'0'") with
    | error reason =>
      rw [hread] at htarget
      cases htarget
    | ok w =>
      rw [hread] at htarget
      exact ⟨w, rfl, Option.some.inj htarget⟩

end Workflow

end AgentGate
