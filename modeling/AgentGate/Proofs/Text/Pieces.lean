import AgentGate.Text.Blank
import Mathlib

/-!
# Pieces of a text

A text is cut at every occurrence of a character, which is in none of the pieces then. A list of
texts that are joined with the character is found again where it is in none of them, and a piece is
what stands between two occurrences, where the text is thought of with one at either end.

- `Text.not_of_mem_splitOnP`, `Text.not_mem_of_mem_pieces`: what is not in a piece.
- `Text.exists_mem_splitOnP_iff`: what is in one.
- `Text.pieces_intercalate`: a text put together with the character has the pieces of its parts.
- `Text.pieces_intercalate_eq_iff`: which lists are found again.
- `Text.intercalate_eq_iff`: which lists are joined to one and the same text.
- `Text.mem_pieces_iff`: a piece stands between two occurrences.
-/

namespace AgentGate.Text

variable {c : Char} {cs line : List Char} {separator : String}

/-- In a piece there is no character at which the text was cut. -/
theorem not_of_mem_splitOnP {p : Char → Bool} {cs piece : List Char} (h : piece ∈ cs.splitOnP p) :
    ∀ c ∈ piece, p c = false := by
  induction cs generalizing piece with
  | nil =>
    obtain rfl := List.mem_singleton.mp (List.splitOnP_nil ▸ h)
    exact nofun
  | cons c cs ih =>
    rw [List.splitOnP_cons_eq_if_modifyHead] at h
    split at h
    case isTrue =>
      rcases List.mem_cons.mp h with rfl | h
      · exact nofun
      · exact ih h
    case isFalse hc =>
      cases hsplit : cs.splitOnP p with
      | nil => exact absurd hsplit (List.splitOnP_ne_nil _ _)
      | cons first rest =>
        rw [hsplit] at h ih
        rcases List.mem_cons.mp h with rfl | h
        · exact List.forall_mem_cons.mpr ⟨Bool.eq_false_iff.mpr hc, ih List.mem_cons_self⟩
        · exact ih (List.mem_cons_of_mem _ h)

/-- The pieces have the other characters of the text, and no more. -/
theorem exists_mem_splitOnP_iff {p : Char → Bool} :
    (∃ piece ∈ cs.splitOnP p, c ∈ piece) ↔ c ∈ cs ∧ p c = false := by
  induction cs with
  | nil => simp [List.splitOnP_nil]
  | cons d cs ih =>
    rw [List.splitOnP_cons_eq_if_modifyHead, List.mem_cons, or_and_right, ← ih]
    split
    case isTrue hd =>
      have hne : ¬(c = d ∧ p c = false) := by
        rintro ⟨rfl, hc⟩
        rw [hd] at hc
        cases hc
      simp [hne]
    case isFalse hd =>
      have hkept : c = d ∧ p c = false ↔ c = d :=
        and_iff_left_of_imp fun heq => heq ▸ Bool.eq_false_iff.mpr hd
      rw [hkept]
      cases hsplit : cs.splitOnP p with
      | nil => exact absurd hsplit (List.splitOnP_ne_nil _ _)
      | cons first rest => simp [or_assoc]

theorem not_mem_of_mem_splitOn (h : line ∈ cs.splitOn c) : c ∉ line := by
  intro hc
  rw [List.splitOn_eq_splitOnP] at h
  simpa using not_of_mem_splitOnP h c hc

theorem not_mem_of_mem_pieces {s piece : String} (h : piece ∈ pieces c s) : c ∉ piece.toList := by
  obtain ⟨cs, hcs, rfl⟩ := List.mem_map.mp h
  rw [String.toList_ofList]
  exact not_mem_of_mem_splitOn hcs

theorem pieces_ne_nil (c : Char) (s : String) : pieces c s ≠ [] := by
  rw [pieces, ne_eq, List.map_eq_nil_iff]
  exact List.splitOn_ne_nil c _

/-- A text without the character is its only piece. -/
theorem pieces_eq_singleton {s : String} (h : c ∉ s.toList) : pieces c s = [s] := by
  rw [pieces, List.splitOn_eq_singleton h, List.map_singleton, String.ofList_toList]

/-! ## Joining and cutting -/

theorem splitOn_append_cons (c : Char) (cs others : List Char) :
    (cs ++ c :: others).splitOn c = cs.splitOn c ++ others.splitOn c := by
  rw [List.splitOn_eq_splitOnP, List.splitOn_eq_splitOnP, List.splitOn_eq_splitOnP]
  exact List.splitOnP_append_cons _ _ (beq_self_eq_true c)

/-- Parts that are not empty are joined to nothing only where there are none. -/
theorem intercalate_eq_nil_iff {words : List (List Char)} (h : ∀ word ∈ words, word ≠ []) :
    [c].intercalate words = [] ↔ words = [] := by
  constructor
  · intro hnil
    cases words with
    | nil => rfl
    | cons word rest =>
      cases rest with
      | nil =>
        rw [List.intercalate_singleton] at hnil
        exact absurd hnil (h word List.mem_cons_self)
      | cons next rest => simp [List.intercalate_cons_cons] at hnil
  · rintro rfl
    rfl

/-- A text put together with the character has the pieces of its parts, if there are any. -/
theorem pieces_intercalate (hseparator : separator.toList = [c]) {items : List String}
    (h : items ≠ []) : pieces c (separator.intercalate items) = items.flatMap (pieces c) := by
  rw [pieces, String.toList_intercalate, hseparator]
  induction items with
  | nil => exact absurd rfl h
  | cons item rest ih =>
    cases rest with
    | nil => rw [List.map_singleton, List.intercalate_singleton, List.flatMap_singleton, pieces]
    | cons next rest =>
      rw [List.map_cons, List.map_cons, List.intercalate_cons_cons, List.append_assoc,
        List.singleton_append, splitOn_append_cons, List.map_append, ← List.map_cons,
        ih (List.cons_ne_nil _ _), ← pieces, ← List.flatMap_cons]

/-- Texts without the character are their own pieces. -/
theorem flatMap_pieces_eq_self_iff {items : List String} :
    items.flatMap (pieces c) = items ↔ ∀ item ∈ items, c ∉ item.toList := by
  constructor
  · intro h item hitem
    rw [← h] at hitem
    obtain ⟨whole, -, hitem⟩ := List.mem_flatMap.mp hitem
    exact not_mem_of_mem_pieces hitem
  · intro h
    induction items with
    | nil => rfl
    | cons item rest ih =>
      obtain ⟨hitem, hrest⟩ := List.forall_mem_cons.mp h
      rw [List.flatMap_cons, pieces_eq_singleton hitem, ih hrest, List.singleton_append]

/-- A list that is joined is found again exactly where the character is in none of its texts. -/
theorem pieces_intercalate_eq_iff (hseparator : separator.toList = [c]) {items : List String}
    (h : items ≠ []) :
    pieces c (separator.intercalate items) = items ↔ ∀ item ∈ items, c ∉ item.toList := by
  rw [pieces_intercalate hseparator h, flatMap_pieces_eq_self_iff]

/-- Joining the pieces of a text gives the text back. -/
theorem intercalate_pieces (hseparator : separator.toList = [c]) (s : String) :
    separator.intercalate (pieces c s) = s := by
  rw [← String.toList_inj, String.toList_intercalate, hseparator, pieces, List.map_map]
  have hlist : String.toList ∘ String.ofList = id := funext fun _ => String.toList_ofList
  rw [hlist, List.map_id, List.intercalate_splitOn]

/-- Two lists are joined to one text exactly where their texts have the same pieces. -/
theorem intercalate_eq_iff (hseparator : separator.toList = [c]) {items others : List String}
    (hitems : items ≠ []) (hothers : others ≠ []) :
    separator.intercalate items = separator.intercalate others
      ↔ items.flatMap (pieces c) = others.flatMap (pieces c) := by
  rw [← pieces_intercalate hseparator hitems, ← pieces_intercalate hseparator hothers]
  constructor
  · exact congrArg (pieces c)
  · intro h
    rw [← intercalate_pieces hseparator (separator.intercalate items), h,
      intercalate_pieces hseparator]

/-! ## What stands between two occurrences -/

/-- What starts with the character does not start among others. -/
theorem cons_infix_append_iff {word first second : List Char} (h : c ∉ first) :
    c :: word <:+: first ++ second ↔ c :: word <:+: second := by
  induction first with
  | nil => rw [List.nil_append]
  | cons d first ih =>
    obtain ⟨hne, hrest⟩ := List.ne_and_not_mem_of_not_mem_cons h
    rw [List.cons_append, List.infix_cons_iff, ih hrest, List.cons_prefix_cons]
    exact or_iff_right fun heq => hne heq.1

/-- Up to the first occurrence two equal texts are equal. -/
theorem eq_of_append_cons_eq {first second rest rest' : List Char} (hfirst : c ∉ first)
    (hsecond : c ∉ second) (h : first ++ c :: rest = second ++ c :: rest') : first = second := by
  have hstart : ∀ {cs rest : List Char}, c ∉ cs → (cs ++ c :: rest).takeWhile (· ≠ c) = cs := by
    intro cs rest hcs
    have hkept : ∀ d ∈ cs, decide (d ≠ c) = true := fun d hd =>
      decide_eq_true (ne_of_mem_of_not_mem hd hcs)
    rw [List.takeWhile_append_of_pos hkept, List.takeWhile_cons_of_neg (by simp), List.append_nil]
  rw [← hstart hfirst, h, hstart hsecond]

/-- Between occurrences of the character there are the texts that are put there, and no others. -/
theorem infix_flatMap_iff {items : List (List Char)} (hitems : ∀ item ∈ items, c ∉ item)
    (hline : c ∉ line) :
    c :: (line ++ [c]) <:+: c :: items.flatMap (· ++ [c]) ↔ line ∈ items := by
  induction items with
  | nil =>
    refine iff_of_false (fun h => ?_) List.not_mem_nil
    have hlength := h.length_le
    simp at hlength
  | cons item rest ih =>
    obtain ⟨hitem, hrest⟩ := List.forall_mem_cons.mp hitems
    rw [List.flatMap_cons, List.append_assoc, List.singleton_append, List.infix_cons_iff,
      cons_infix_append_iff hitem, ih hrest, List.mem_cons, List.cons_prefix_cons,
      and_iff_right rfl]
    refine or_congr_left ⟨fun h => ?_, fun h => ?_⟩
    · obtain ⟨after, hafter⟩ := h
      rw [List.append_assoc, List.singleton_append] at hafter
      exact eq_of_append_cons_eq hline hitem hafter
    · rw [h]
      exact ⟨_, by rw [List.append_assoc, List.singleton_append]⟩

/-- With one more behind the last, the character is behind every part. -/
theorem intercalate_append_singleton {items : List (List Char)} (h : items ≠ []) :
    [c].intercalate items ++ [c] = items.flatMap (· ++ [c]) := by
  induction items with
  | nil => exact absurd rfl h
  | cons item rest ih =>
    cases rest with
    | nil => rw [List.intercalate_singleton, List.flatMap_singleton]
    | cons next rest =>
      rw [List.intercalate_cons_cons, List.append_assoc, ih (List.cons_ne_nil _ _)]
      rfl

/-- A piece stands between two occurrences of the character, where the ends count as such. -/
theorem mem_splitOn_iff (hline : c ∉ line) :
    line ∈ cs.splitOn c ↔ c :: (line ++ [c]) <:+: c :: (cs ++ [c]) := by
  have hwhole : [c].intercalate (cs.splitOn c) ++ [c] = (cs.splitOn c).flatMap (· ++ [c]) :=
    intercalate_append_singleton (List.splitOn_ne_nil c cs)
  rw [List.intercalate_splitOn] at hwhole
  rw [hwhole, infix_flatMap_iff (fun item hitem => not_mem_of_mem_splitOn hitem) hline]

theorem mem_pieces_iff {s piece : String} (h : c ∉ piece.toList) :
    piece ∈ pieces c s ↔ c :: (piece.toList ++ [c]) <:+: c :: (s.toList ++ [c]) := by
  rw [pieces, ← mem_splitOn_iff h, List.mem_map]
  constructor
  · rintro ⟨cs, hcs, rfl⟩
    rwa [String.toList_ofList]
  · exact fun hmem => ⟨_, hmem, String.ofList_toList⟩

end AgentGate.Text
