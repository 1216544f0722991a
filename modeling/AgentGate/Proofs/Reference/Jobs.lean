import AgentGate.Proofs.Reference.Scan

/-!
# Jobs that texts refer to

Among declared names the search keeps those that it has found in some text. What it finds is there,
and it does not miss what stands free; between the two lie references that start inside of what the
search has taken for another one.

- `Reference.mem_jobs_iff`: a declared name, not the job's own, that is found in some text.
- `Reference.jobs_congr`: nothing but what is found matters, in particular not the order of texts.
- `Reference.exists_text_of_mem_names`: what is found is a name, and stands in the text.
- `Reference.jobs_sound_complete`: both directions for whole lists of texts.
-/

namespace AgentGate.Reference

variable {texts texts' declared : List String} {self name : String}

/-- The jobs that texts refer to are declared, are other jobs, and are named in one of the texts. -/
theorem mem_jobs_iff :
    name ∈ jobs texts declared self
      ↔ name ∈ declared ∧ name ≠ self ∧ ∃ text ∈ texts, name.toList ∈ names text.toList := by
  have hfound : (texts.flatMap fun text => (names text.toList).map String.ofList).contains name
      = true ↔ ∃ text ∈ texts, name.toList ∈ names text.toList := by
    simp only [List.contains_iff_mem, List.mem_flatMap, List.mem_map]
    constructor
    · rintro ⟨text, htext, cs, hcs, rfl⟩
      exact ⟨text, htext, by rwa [String.toList_ofList]⟩
    · rintro ⟨text, htext, hname⟩
      exact ⟨text, htext, name.toList, hname, String.ofList_toList⟩
  rw [jobs, List.mem_filter, Bool.and_eq_true, hfound, decide_eq_true_eq]

/-- What texts refer to among declared names is all that matters for the wiring. -/
theorem jobs_congr
    (h : ∀ name ∈ declared, (∃ text ∈ texts, name.toList ∈ names text.toList)
      ↔ ∃ text ∈ texts', name.toList ∈ names text.toList) :
    jobs texts declared self = jobs texts' declared self := by
  have hmem : ∀ name ∈ declared,
      name ∈ jobs texts declared self ↔ name ∈ jobs texts' declared self := by
    intro name hname
    rw [mem_jobs_iff, mem_jobs_iff, h name hname]
  refine List.filter_congr fun name hname => Bool.eq_iff_iff.mpr ?_
  have hname' := hmem name hname
  rwa [jobs, jobs, List.mem_filter, List.mem_filter, and_iff_right hname, and_iff_right hname]
    at hname'

theorem isName_of_mem_names {text found : List Char} (h : found ∈ names text) :
    isName found = true := by
  fun_induction names text with
  | case1 text first after hleading ih =>
    rcases List.mem_cons.mp h with rfl | h
    · exact isName_of_leading? hleading
    · exact ih h
  | case2 => cases h
  | case3 c rest _ ih => exact ih h

/-- What is found is a name, and stands in the text between a reference's word and its last dot. -/
theorem exists_text_of_mem_names {text : String} (h : name.toList ∈ names text.toList) :
    isName name.toList = true
      ∧ ∃ before after, text = before ++ ("needs." ++ (name ++ ("." ++ after))) := by
  obtain ⟨-, before, after, htext⟩ := exists_of_mem_names h
  refine ⟨isName_of_mem_names h, String.ofList before, String.ofList after, ?_⟩
  apply String.toList_injective
  simp only [String.toList_append, String.toList_ofList, htext]
  rfl

/-- **References are found soundly, and completely where they stand free.** Each job that is found
is declared, is not the job itself, and is referred to by some text. Each declared job, apart from
the job itself, is found when its name can be referred to and some text does so at its start or
behind a separator, whatever stands before. Texts in another order, or given more than once, refer
to the same jobs. -/
theorem jobs_sound_complete (texts declared : List String) (self : String) :
    (∀ name ∈ jobs texts declared self,
        name ∈ declared ∧ name ≠ self ∧ isName name.toList = true ∧
          ∃ text ∈ texts, ∃ before after,
            text = before ++ ("needs." ++ (name ++ ("." ++ after)))) ∧
      (∀ name ∈ declared, name ≠ self → isName name.toList = true →
        (∃ text ∈ texts, StandsFree name text) → name ∈ jobs texts declared self) ∧
      ∀ texts' : List String, (∀ text, text ∈ texts' ↔ text ∈ texts) →
        jobs texts' declared self = jobs texts declared self := by
  refine ⟨fun name hname => ?_, fun name hdeclared hself hname => ?_, fun texts' htexts => ?_⟩
  · obtain ⟨hdeclared, hself, text, htext, hfound⟩ := mem_jobs_iff.mp hname
    obtain ⟨hname, hoccurs⟩ := exists_text_of_mem_names hfound
    exact ⟨hdeclared, hself, hname, text, htext, hoccurs⟩
  · rintro ⟨text, htext, hstands⟩
    exact mem_jobs_iff.mpr ⟨hdeclared, hself, text, htext, mem_names_of_standsFree hname hstands⟩
  · exact jobs_congr fun name _ => exists_congr fun text => and_congr (htexts text) Iff.rfl

/-- A reference that does not stand free may be missed: `needs.needs.` is taken for one. -/
example : jobs ["needs.needs.build.result"] ["build"] "report" = [] := by decide +kernel

end AgentGate.Reference
