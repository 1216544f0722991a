import AgentGate.Proofs.Toolset
import AgentGate.Proofs.Toolset.Required
import Mathlib.Logic.Relation

/-!
# Lists of toolsets that say the same

A list of toolsets can be written in many ways: in another order, with repetitions, with blanks
around its entries or between them, and with the members of `default` in the place of the word. All
of them stand for the same names, and none of them adds or removes the word `all`, which an audit
looks for besides the names.

- `Toolset.Respells`: one change of the way a list is written.
- `Toolset.SameList`: any number of such changes, in both directions.
- `Toolset.Robust`: what such changes keep of the entries of a list.
- `Toolset.SameList.mem_expand_iff`, `Toolset.SameList.exists_all_iff`: the two things that an audit
  looks for.
-/

namespace AgentGate

namespace Toolset

/-! ## Changing how a list is written -/

/-- One change of the way a list of toolsets is written. Together with changes of the order it can
be made at any place. -/
inductive Respells : List String → List String → Prop where
  | reorder {texts texts' : List String} : texts.Perm texts' → Respells texts texts'
  | again {text : String} {texts : List String} : text ∈ texts → Respells texts (text :: texts)
  /-- Blanks around an entry. -/
  | surround {before text after : String} {texts : List String} : Text.allBlank before = true →
      Text.allBlank after = true → Respells (text :: texts) ((before ++ text ++ after) :: texts)
  /-- A further entry of blanks alone. -/
  | blank {text : String} {texts : List String} : Text.allBlank text = true →
      Respells texts (text :: texts)
  /-- The members of `default` in the place of the word. -/
  | members {text : String} {texts : List String} : Text.trim text = "default" →
      Respells (text :: texts) (defaultNames ++ texts)

/-- Two ways of writing a list of toolsets. -/
def SameList : List String → List String → Prop :=
  Relation.EqvGen Respells

variable {texts texts' : List String} {text name : String}

/-! ## What stays the same -/

/-- A property of entries that no change of the spelling brings into a list or takes out of it. -/
structure Robust (p : String → Prop) : Prop where
  congr : ∀ {text text' : String}, Text.trim text = Text.trim text' → (p text ↔ p text')
  blank : ∀ {text : String}, Text.trim text = "" → ¬ p text
  members : p "default" ↔ ∃ name ∈ defaultNames, p name

variable {p : String → Prop}

theorem Respells.exists_mem_iff (h : Respells texts texts') (hp : Robust p) :
    (∃ text ∈ texts, p text) ↔ ∃ text ∈ texts', p text := by
  cases h with
  | reorder hperm => simp only [hperm.mem_iff]
  | @again text _ hmem =>
    simp only [List.mem_cons, exists_eq_or_imp]
    exact (or_iff_right_of_imp fun htext => ⟨text, hmem, htext⟩).symm
  | surround hbefore hafter =>
    simp only [List.mem_cons, exists_eq_or_imp, hp.congr (Text.trim_surround hbefore hafter _)]
  | blank htext =>
    simp only [List.mem_cons, exists_eq_or_imp, hp.blank (Text.trim_eq_empty_of_allBlank htext),
      false_or]
  | members htext =>
    have hdefault : Text.trim "default" = "default" := by decide
    simp only [List.mem_cons, exists_eq_or_imp, hp.congr (htext.trans hdefault.symm), hp.members]
    simp only [List.mem_append, or_and_right, exists_or]

theorem SameList.exists_mem_iff (h : SameList texts texts') (hp : Robust p) :
    (∃ text ∈ texts, p text) ↔ ∃ text ∈ texts', p text := by
  induction h with
  | rel _ _ hrespells => exact hrespells.exists_mem_iff hp
  | refl => exact Iff.rfl
  | symm _ _ _ ih => exact ih.symm
  | trans _ _ _ _ _ ih ih' => exact ih.trans ih'

theorem expandEntry_congr {text text' : String} (h : Text.trim text = Text.trim text') :
    expandEntry text = expandEntry text' := by
  rw [← expandEntry_trim, h, expandEntry_trim]

theorem robust_mem_expandEntry (name : String) : Robust fun text => name ∈ expandEntry text where
  congr htrim := by rw [expandEntry_congr htrim]
  blank htrim := by
    rw [expandEntry_of_trim_eq_empty htrim]
    exact List.not_mem_nil
  members := by
    have hdefault : expandEntry "default" = defaultNames := by decide
    have hmember : ∀ name ∈ defaultNames, expandEntry name = [name] := by decide
    rw [hdefault]
    constructor
    · intro hname
      exact ⟨name, hname, by rw [hmember name hname]; exact List.mem_singleton_self name⟩
    · rintro ⟨member, hin, hname⟩
      rw [hmember member hin] at hname
      exact List.mem_singleton.mp hname ▸ hin

theorem robust_trim_eq_all : Robust fun text => Text.trim text = "all" where
  congr htrim := by rw [htrim]
  blank htrim hall := absurd (htrim.symm.trans hall) (by decide)
  members := by decide

/-- However a list is written, it stands for the same names. -/
theorem SameList.mem_expand_iff (h : SameList texts texts') (name : String) :
    name ∈ expand texts ↔ name ∈ expand texts' := by
  rw [Toolset.mem_expand_iff, Toolset.mem_expand_iff]
  exact h.exists_mem_iff (robust_mem_expandEntry name)

/-- However a list is written, it has the word `all` in it or has not. -/
theorem SameList.exists_all_iff (h : SameList texts texts') :
    (∃ text ∈ texts, Text.trim text = "all") ↔ ∃ text ∈ texts', Text.trim text = "all" :=
  h.exists_mem_iff robust_trim_eq_all

end Toolset

end AgentGate
