import AgentGate.Proofs.Expression.Reading

/-!
# Expressions in parts

A text that is put together from smaller ones is read from what they are read as.

- `Nest.resume`: brackets inside brackets. What is read between two brackets does not depend on what
  stands around them.
- `read_and`: behind `&&`, a text without `&&` and `||` of its own joins the last alternative of
  what stands before it, and only that one (`Expression.andLast`).
- `read_or`, `read_group`, `read_not`: the other ways in which texts are put together.
- `read_intercalate`: any number of texts with one operator between them (`joinAll`).
-/

namespace AgentGate.Expression

/-! ## Brackets -/

namespace Nest

/-- What is open and read when the nest with `outer` and `here` stands inside another one. -/
def resume (n : Nest) : List (Bracket × List Item) → List Item → Nest
  | [], here => ⟨n.outer, n.here ++ here⟩
  | (bracket, before) :: outer, here =>
    ⟨(bracket, (n.resume outer before).here) :: (n.resume outer before).outer, here⟩

theorem resume_append (n : Nest) (outer : List (Bracket × List Item)) (here more : List Item) :
    n.resume outer (here ++ more)
      = ⟨(n.resume outer here).outer, (n.resume outer here).here ++ more⟩ := by
  cases outer with
  | nil => rw [resume, resume, List.append_assoc]
  | cons => rfl

/-- A token does inside another nest what it does alone. Only a bracket that closes too much can
make a difference, if there is something around to close. -/
theorem step_resume {n m : Nest} {t : Token} (h : n.outer = [] ∨ m.step t ≠ none) :
    (n.resume m.outer m.here).step t = (m.step t).map fun m => n.resume m.outer m.here := by
  obtain ⟨outer, here⟩ := m
  cases t with
  | opening bracket => rfl
  | closing bracket =>
    cases outer with
    | nil =>
      -- The bracket would close one around `m`: there is none, or the step alone was possible.
      rcases h with houter | hstep
      · simp only [step, resume, houter, Option.map_none]
      · exact absurd rfl hstep
    | cons first outer =>
      obtain ⟨opened, before⟩ := first
      simp only [step, resume]
      split
      · rw [Option.map_map]
        exact congrArg (Option.map · _) (funext fun inner => (resume_append n outer before _).symm)
      · rfl
  | word | text | comma | not | and | or | compare =>
    exact congrArg some (resume_append n outer here _).symm

theorem foldlM_resume (n m : Nest) (ts : List Token)
    (h : n.outer = [] ∨ ts.foldlM step m ≠ none) :
    ts.foldlM step (n.resume m.outer m.here)
      = (ts.foldlM step m).map fun m => n.resume m.outer m.here := by
  induction ts generalizing m with
  | nil => rfl
  | cons t ts ih =>
    rw [List.foldlM_cons] at h
    rw [List.foldlM_cons, List.foldlM_cons]
    have hstep : n.outer = [] ∨ m.step t ≠ none :=
      h.imp_right fun hne heq => hne (by rw [heq]; rfl)
    rw [step_resume hstep]
    cases hm : m.step t with
    | none => rfl
    | some m' =>
      rw [hm] at h
      exact ih m' h

end Nest

variable {ts us : List Token} {xs ys : List Item} {e g : Expression} {text gate : String}

theorem items_eq_some_iff : items ts = some xs ↔ ts.foldlM Nest.step ⟨[], []⟩ = some ⟨[], xs⟩ := by
  rw [items, Option.bind_eq_some_iff]
  constructor
  · rintro ⟨⟨outer, here⟩, hfold, hhere⟩
    cases outer with
    | nil => rw [hfold, ← Option.some.inj hhere]
    | cons => cases hhere
  · exact fun hfold => ⟨⟨[], xs⟩, hfold, rfl⟩

/-- Tokens with their brackets closed add their items in front. -/
theorem items_append_left (h : items ts = some xs) (us : List Token) :
    items (ts ++ us) = (items us).map (xs ++ ·) := by
  have hresume := Nest.foldlM_resume ⟨[], xs⟩ ⟨[], []⟩ us (.inl rfl)
  rw [Nest.resume, List.append_nil] at hresume
  rw [items, List.foldlM_append, items_eq_some_iff.mp h, Option.bind_eq_bind, Option.bind_some,
    hresume, items]
  rcases us.foldlM Nest.step ⟨[], []⟩ with _ | ⟨_ | _, here⟩ <;> rfl

/-- Tokens with their brackets closed add their items at the end, and mend nothing that was open or
out of place before them. -/
theorem items_append_right (ts : List Token) (h : items us = some ys) :
    items (ts ++ us) = (items ts).map (· ++ ys) := by
  have hfold := items_eq_some_iff.mp h
  rw [items, List.foldlM_append, items]
  cases hts : ts.foldlM Nest.step ⟨[], []⟩ with
  | none => rfl
  | some n =>
    -- Whatever `ts` leaves open stays open around `us`.
    have hresume := Nest.foldlM_resume n ⟨[], []⟩ us
      (.inr (by rw [hfold]; exact Option.some_ne_none _))
    rw [Nest.resume, List.append_nil, hfold, Option.map_some, Nest.resume] at hresume
    obtain ⟨outer, here⟩ := n
    rw [Option.bind_eq_bind, Option.bind_some, hresume]
    cases outer <;> rfl

/-! ## Joined texts -/

theorem read_eq_some_iff : read text = some e
    ↔ ∃ ts xs, tokens text.toList = some ts ∧ items ts = some xs ∧ disjunction xs = some e := by
  simp only [read, Option.bind_eq_some_iff]
  exact ⟨fun ⟨ts, hts, xs, hxs, he⟩ => ⟨ts, xs, hts, hxs, he⟩,
    fun ⟨ts, xs, hts, hxs, he⟩ => ⟨ts, hts, xs, hxs, he⟩⟩

/-- The expression with a further one joined to its last alternative by `&&`. -/
def andLast : Expression → Expression → Expression
  | or left right, g => or left (and right g)
  | e, g => and e g

theorem andLast_of_level (h : 1 ≤ e.level) (g : Expression) : e.andLast g = and e g := by
  cases e with
  | or => cases h
  | operand | group | not | compare | and => rfl

theorem disjunction_append_and (hor : Free Item.or? ys) (hand : Free Item.and? ys)
    (hys : equality ys = some g) (xs : List Item) :
    disjunction (xs ++ .token .and :: ys) = (disjunction xs).map (andLast · g) := by
  -- `&&` binds more tightly than `||`, so it is the last alternative that it joins.
  have hconj : ∀ last : List Item,
      conjunction (last ++ .token .and :: ys) = (conjunction last).map (and · g) := by
    intro last
    rw [conjunction, joined_append (show Item.and? (.token .and) = some () from rfl) hand, hys]
    exact Option.map_eq_bind.symm
  have hfree : ∀ {last : List Item}, Free Item.or? last →
      Free Item.or? (last ++ .token .and :: ys) := fun hlast =>
    List.forall_mem_append.mpr ⟨hlast, List.forall_mem_cons.mpr ⟨rfl, hor⟩⟩
  rcases free_or_last Item.or? xs with hxs | ⟨before, op, how, last, rfl, hop, hlast⟩
  · rw [disjunction, joined_of_free hxs, joined_of_free (hfree hxs), hconj]
    exact Option.map_congr fun e he => (andLast_of_level (level_of_conjunction he) g).symm
  · rw [List.append_assoc, List.cons_append, disjunction, joined_append hop (hfree hlast), hconj,
      joined_append hop hlast, Option.map_bind]
    refine congrArg (Option.bind _) (funext fun left => ?_)
    show Option.map _ (Option.map _ _) = Option.map _ (Option.map _ _)
    rw [Option.map_map, Option.map_map]
    rfl

theorem disjunction_append_or (hor : Free Item.or? ys) (hys : conjunction ys = some g)
    (xs : List Item) :
    disjunction (xs ++ .token .or :: ys) = (disjunction xs).map (or · g) := by
  rw [disjunction, joined_append (show Item.or? (.token .or) = some () from rfl) hor, hys]
  exact Option.map_eq_bind.symm

/-- An operator between blanks and a text change what is read as their items change what is read
from items. -/
theorem read_append (first second : Char) (half : Half) (op : Token) {whole : String}
    {f : Expression → Expression} (hfirst : Scan.start first = some ([], .half half))
    (hsecond : half.double? second = some op) (hop : items [op] = some [.token op])
    (hwhole : whole.toList = text.toList ++ ' ' :: first :: second :: ' ' :: gate.toList)
    (hts : tokens gate.toList = some ts) (hys : items ts = some ys)
    (hf : ∀ xs, disjunction (xs ++ .token op :: ys) = (disjunction xs).map f) :
    read whole = (read text).map f := by
  have hrest : tokens (first :: second :: ' ' :: gate.toList) = some (op :: ts) := by
    rw [tokens_cons_cons_of_half hfirst hsecond, tokens_blank, hts, Option.map_some]
  have hitems : items (op :: ts) = some (.token op :: ys) := by
    rw [← List.singleton_append, items_append_left hop, hys, Option.map_some, List.singleton_append]
  -- The text may be malformed or leave brackets open; then nothing is read on either side.
  rw [read, hwhole, tokens_append_blank hrest, read, Option.bind_map, Option.map_bind]
  refine congrArg (Option.bind _) (funext fun before => ?_)
  show (items (before ++ op :: ts)).bind disjunction = ((items before).bind disjunction).map f
  rw [items_append_right before hitems, Option.bind_map, Option.map_bind]
  exact congrArg (Option.bind _) (funext hf)

/-- **Behind `&&`, a text that binds more tightly joins the last alternative of whatever stands
before it**, and no other. -/
theorem read_and (hg : read gate = some g) (hlevel : 2 ≤ g.level) (text : String) :
    read (text ++ " && " ++ gate) = (read text).map (andLast · g) := by
  obtain ⟨ts, ys, hts, hys, hread⟩ := read_eq_some_iff.mp hg
  obtain ⟨hor, hand, heq⟩ := equality_of_disjunction hread hlevel
  refine read_append '&' '&' .ampersand .and rfl rfl rfl ?_ hts hys
    (disjunction_append_and hor hand heq)
  rw [String.toList_append, String.toList_append, List.append_assoc]
  rfl

example : read "a || b && c"
    = some (.or (.operand [.word ['a']])
      (.and (.operand [.word ['b']]) (.operand [.word ['c']]))) := by
  rfl

/-- Behind `||`, a text that binds more tightly is the last alternative. -/
theorem read_or (hg : read gate = some g) (hlevel : 1 ≤ g.level) (text : String) :
    read (text ++ " || " ++ gate) = (read text).map (or · g) := by
  obtain ⟨ts, ys, hts, hys, hread⟩ := read_eq_some_iff.mp hg
  obtain ⟨hor, hconj⟩ := conjunction_of_disjunction hread hlevel
  refine read_append '|' '|' .bar .or rfl rfl rfl ?_ hts hys (disjunction_append_or hor hconj)
  rw [String.toList_append, String.toList_append, List.append_assoc]
  rfl

/-! ## Any number of joined texts -/

/-- Expressions joined from the left, as operators associate. -/
def joinAll (join : Expression → Expression → Expression) : List Expression → Expression
  | [] => .operand []
  | first :: rest => rest.foldl join first

section JoinAll

variable {α : Type} {join : Expression → Expression → Expression} {shape : α → Expression}
  {written : α → String} {parts : List α}

/-- What joins any number of expressions is one of them, or joins a last one to what stands before
it. -/
theorem joinAll_induction {P : List α → Expression → Prop} (hone : ∀ part, P [part] (shape part))
    (hmore : ∀ before e last, before ≠ [] → P before e →
      P (before ++ [last]) (join e (shape last)))
    (hne : parts ≠ []) : P parts (joinAll join (parts.map shape)) := by
  induction parts using List.reverseRecOn with
  | nil => exact absurd rfl hne
  | append_singleton before last ih =>
    cases before with
    | nil => exact hone last
    | cons first rest =>
      have hjoined : joinAll join ((first :: rest ++ [last]).map shape)
          = join (joinAll join ((first :: rest).map shape)) (shape last) := by
        rw [List.map_append, List.map_cons, List.cons_append, joinAll, List.map_singleton,
          List.foldl_concat, joinAll]
      rw [hjoined]
      exact hmore _ _ _ (List.cons_ne_nil _ _) (ih (List.cons_ne_nil _ _))

/-- Texts that bind more tightly than the operator between them are read as joined by it. -/
theorem read_intercalate {separator : String} {least : Nat} (hleast : least ≤ 2)
    (hjoin : ∀ {text gate e g}, read text = some e → least ≤ e.level → read gate = some g →
      2 ≤ g.level → read (text ++ separator ++ gate) = some (join e g) ∧ least ≤ (join e g).level)
    (hne : parts ≠ [])
    (h : ∀ part ∈ parts, read (written part) = some (shape part) ∧ 2 ≤ (shape part).level) :
    read (separator.intercalate (parts.map written)) = some (joinAll join (parts.map shape))
      ∧ least ≤ (joinAll join (parts.map shape)).level := by
  refine joinAll_induction
    (P := fun parts e =>
      (∀ part ∈ parts, read (written part) = some (shape part) ∧ 2 ≤ (shape part).level) →
        read (separator.intercalate (parts.map written)) = some e ∧ least ≤ e.level)
    (fun part h => ?one) (fun before e last hbefore ih h => ?more) hne h
  case one =>
    obtain ⟨hread, hlevel⟩ := List.forall_mem_singleton.mp h
    rw [List.map_singleton, String.intercalate_singleton]
    exact ⟨hread, Nat.le_trans hleast hlevel⟩
  case more =>
    obtain ⟨hinit, hlast⟩ := List.forall_mem_append.mp h
    obtain ⟨he, hle⟩ := ih hinit
    obtain ⟨hg, hlevel⟩ := List.forall_mem_singleton.mp hlast
    rw [List.map_append, List.map_singleton, String.intercalate_append_of_ne_nil
      (fun hmap => hbefore (List.map_eq_nil_iff.mp hmap)) (List.cons_ne_nil _ _),
      String.intercalate_singleton]
    exact hjoin he hle hg hlevel

/-- Texts that bind more tightly than `&&`, with `&&` between them. -/
theorem read_intercalate_and (hne : parts ≠ [])
    (h : ∀ part ∈ parts, read (written part) = some (shape part) ∧ 2 ≤ (shape part).level) :
    read (" && ".intercalate (parts.map written)) = some (joinAll and (parts.map shape))
      ∧ 1 ≤ (joinAll and (parts.map shape)).level := by
  refine read_intercalate (by decide) (fun {text _ e g} he hleast hg hlevel => ⟨?_, Nat.le_refl 1⟩)
    hne h
  rw [read_and hg hlevel, he, Option.map_some, andLast_of_level hleast]

/-- Texts that bind more tightly than `||`, with `||` between them. -/
theorem read_intercalate_or (hne : parts ≠ [])
    (h : ∀ part ∈ parts, read (written part) = some (shape part) ∧ 2 ≤ (shape part).level) :
    read (" || ".intercalate (parts.map written)) = some (joinAll or (parts.map shape)) := by
  refine (read_intercalate (Nat.zero_le 2)
    (fun {text _ e g} he _ hg hlevel => ⟨?_, Nat.zero_le _⟩) hne h).1
  rw [read_or hg (Nat.le_of_succ_le hlevel), he, Option.map_some]

end JoinAll

/-! ## Parentheses and negations -/

/-- A text in parentheses. -/
theorem read_group (h : read text = some e) : read ("(" ++ text ++ ")") = some (.group e) := by
  obtain ⟨ts, xs, hts, hxs, he⟩ := read_eq_some_iff.mp h
  have htokens : tokens ("(" ++ text ++ ")").toList
      = some (.opening .round :: (ts ++ [.closing .round])) := by
    rw [String.toList_append, String.toList_append, List.append_assoc,
      show "(".toList = ['('] from rfl, show ")".toList = [')'] from rfl, List.singleton_append,
      tokens_cons_of_start rfl, tokens, tokens_append_break break_closing hts]
    rfl
  -- An expression has no comma outside of brackets, so it is one argument.
  have harguments : arguments xs = some [e] := by
    cases xs with
    | nil => cases he
    | cons item rest =>
      have hcomma := free_comma_of_disjunction he
      rw [arguments, chain_of_free hcomma]
      · show (do let first ← disjunction (item :: rest); pure [first]) = some [e]
        rw [he]
        rfl
      · exact List.cons_ne_nil item rest
  have hitems : items (.opening .round :: (ts ++ [.closing .round]))
      = some [.bracketed .round
          (.opening .round :: xs.flatMap Item.tokens ++ [.closing .round]) [e]] := by
    -- Behind the parenthesis the text is read as it is alone.
    have hinside : ts.foldlM Nest.step ⟨[(.round, [])], []⟩ = some ⟨[(.round, [])], xs⟩ := by
      have hresume := Nest.foldlM_resume ⟨[(.round, [])], []⟩ ⟨[], []⟩ ts
        (.inr (by rw [items_eq_some_iff.mp hxs]; exact Option.some_ne_none _))
      rwa [items_eq_some_iff.mp hxs] at hresume
    rw [items_eq_some_iff, List.foldlM_cons]
    show (ts ++ [Token.closing .round]).foldlM Nest.step ⟨[(.round, [])], []⟩ = _
    rw [List.foldlM_append, hinside]
    show (Nest.step ⟨[(.round, [])], xs⟩ (.closing .round)).bind some = _
    rw [Option.bind_fun_some]
    simp only [Nest.step, harguments]
    rfl
  exact read_eq_some_iff.mpr ⟨_, _, htokens, hitems, rfl⟩

/-- An expression does not start with a comparison. -/
theorem disjunction_cons_equal (xs : List Item) :
    disjunction (.token (.compare .equal) :: xs) = none := by
  have hrelation : ∀ ys, relation (.token (.compare .equal) :: ys) = none :=
    joined_cons_eq_none (.inl rfl) fun _ => rfl
  have hequality : ∀ ys, equality (.token (.compare .equal) :: ys) = none :=
    joined_cons_eq_none (.inr rfl) hrelation
  exact joined_cons_eq_none (.inl rfl) (joined_cons_eq_none (.inl rfl) hequality) xs

theorem ne_equals_of_read {c : Char} {rest : List Char} (htext : text.toList = c :: rest)
    (h : read text = some e) : c ≠ '=' := by
  rintro rfl
  have hstart : Scan.start '=' = some ([], .half .equals) := rfl
  have hitem : items [.compare .equal] = some [.token (.compare .equal)] := rfl
  obtain ⟨ts, xs, hts, hxs, he⟩ := read_eq_some_iff.mp h
  rw [htext] at hts
  cases rest with
  | nil => cases hts
  | cons c rest =>
    -- A single equals sign is no operator, and two of them have nothing to compare.
    by_cases hc : c = '='
    · rw [hc, tokens_cons_cons_of_half hstart rfl] at hts
      obtain ⟨ts, -, rfl⟩ := Option.map_eq_some_iff.mp hts
      rw [← List.singleton_append, items_append_left hitem] at hxs
      obtain ⟨xs, -, rfl⟩ := Option.map_eq_some_iff.mp hxs
      rw [List.singleton_append, disjunction_cons_equal] at he
      cases he
    · rw [tokens_cons_cons_of_single hstart (double?_of_ne hc).2] at hts
      cases hts

/-- A text that no operator joins, behind `!`. -/
theorem read_not (h : read text = some e) (hlevel : 3 ≤ e.level) :
    read ("!" ++ text) = some (.not e) := by
  obtain ⟨ts, xs, hts, hxs, he⟩ := read_eq_some_iff.mp h
  obtain ⟨hor, hand, hequality, hrelation, hnegation⟩ := negation_of_disjunction he hlevel
  have htokens : tokens ("!" ++ text).toList = some (.not :: ts) := by
    rw [String.toList_append, show "!".toList = ['!'] from rfl, List.singleton_append]
    cases htext : text.toList with
    | nil =>
      rw [htext] at hts
      cases hts
      cases hxs
      cases he
    | cons c rest =>
      have hdouble := (double?_of_ne (ne_equals_of_read htext h)).1
      rw [tokens_cons_cons_of_single rfl hdouble, ← htext, hts]
      rfl
  have hitems : items (.not :: ts) = some (.token .not :: xs) := by
    have hnot : items [.not] = some [.token .not] := rfl
    rw [← List.singleton_append, items_append_left hnot, hxs, Option.map_some,
      List.singleton_append]
  have hfree : ∀ {β : Type} {operator? : Item → Option β}, operator? (.token .not) = none →
      Free operator? xs → Free operator? (.token .not :: xs) := fun hnot hxs =>
    List.forall_mem_cons.mpr ⟨hnot, hxs⟩
  refine read_eq_some_iff.mpr ⟨_, _, htokens, hitems, ?_⟩
  rw [disjunction_eq_negation (hfree rfl hor) (hfree rfl hand) (hfree rfl hequality)
    (hfree rfl hrelation), negation, hnegation, Option.map_some]

end AgentGate.Expression
