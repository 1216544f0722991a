import Mathlib.Data.Bool.Basic
import Mathlib.Data.List.Basic

/-!
# Tokens of written expressions

A condition is written as an expression over contexts and function calls. Its characters fall into
words, strings between single quotes, brackets, commas and operators; blanks only separate. A quote
inside a string is written twice.

- `Scan.step`, `Scan.run`: the scanner, one character at a time. What it knows between two
  characters is a `Scan`, so that the tokens of a joined text follow from those of its parts.
- `tokens`: the tokens of a text, if it has no character or half operator out of place.
- `tokens_append_break`: a blank or closing bracket ends whatever stands before it.
- `tokens_append_blank`: behind a blank, a text that is well-formed on its own adds its own tokens
  and nothing else, and it mends nothing that was malformed before it.
-/

namespace AgentGate.Expression

/-- How two values are compared. -/
inductive Comparison where
  | equal | notEqual | less | atMost | greater | atLeast
  deriving DecidableEq, Repr

/-- The kinds of brackets. -/
inductive Bracket where
  | round | square
  deriving DecidableEq, Repr

/-- A token. -/
inductive Token where
  /-- A name with its path, a number or a keyword. -/
  | word (chars : List Char)
  /-- A string, without its quotes. -/
  | text (chars : List Char)
  | opening (bracket : Bracket)
  | closing (bracket : Bracket)
  | comma
  | not
  | and
  | or
  | compare (how : Comparison)
  deriving DecidableEq, Repr

/-! ## The scanner -/

/-- The first character of an operator, which may have or need a second one. -/
inductive Half where
  | ampersand | bar | equals | bang | less | greater
  deriving DecidableEq, Repr

namespace Half

/-- The operator that the character is on its own. -/
def single? : Half → Option Token
  | bang => some .not
  | less => some (.compare .less)
  | greater => some (.compare .greater)
  | ampersand | bar | equals => none

/-- The operator that the character is together with the next one. -/
def double? : Half → Char → Option Token
  | ampersand, '&' => some .and
  | bar, '|' => some .or
  | equals, '=' => some (.compare .equal)
  | bang, '=' => some (.compare .notEqual)
  | less, '=' => some (.compare .atMost)
  | greater, '=' => some (.compare .atLeast)
  | _, _ => none

end Half

/-- What the scanner knows between two characters. -/
inductive Scan where
  | between
  | word (chars : List Char)
  | text (chars : List Char)
  /-- Behind a quote in a string, which ends the string unless another one follows. -/
  | quote (chars : List Char)
  | half (first : Half)
  deriving DecidableEq, Repr

/-- The characters that only separate. -/
def isBlank (c : Char) : Bool :=
  c = ' ' || c = '\t' || c = '\n' || c = '\r'

/-- The tokens of one character that nothing goes on with. -/
def sign? : Char → Option Token
  | '(' => some (.opening .round)
  | ')' => some (.closing .round)
  | '[' => some (.opening .square)
  | ']' => some (.closing .square)
  | ',' => some .comma
  | _ => none

/-- The characters that operators start with. -/
def half? : Char → Option Half
  | '&' => some .ampersand
  | '|' => some .bar
  | '=' => some .equals
  | '!' => some .bang
  | '<' => some .less
  | '>' => some .greater
  | _ => none

/-- The characters of words. -/
def isWordChar (c : Char) : Bool :=
  c.isAlphanum || c = '_' || c = '-' || c = '.' || c = '*' || c = '+'

namespace Scan

/-- The tokens that are complete when a text ends here. -/
def finish : Scan → Option (List Token)
  | between => some []
  | word chars => some [.word chars]
  | text _ => none
  | quote chars => some [.text chars]
  | half first => first.single?.map fun token => [token]

/-- A character at the start of a token. -/
def start (c : Char) : Option (List Token × Scan) :=
  if isBlank c then some ([], between)
  else if c = '\'' then some ([], text [])
  else if isWordChar c then some ([], word [c])
  else
    match sign? c, half? c with
    | some token, _ => some ([token], between)
    | none, some first => some ([], half first)
    | none, none => none

/-- A character that does not go on with the token before it. -/
def restart (s : Scan) (c : Char) : Option (List Token × Scan) :=
  s.finish.bind fun before => (start c).map fun taken => (before ++ taken.1, taken.2)

/-- One character: the tokens that it completes, and what is known behind it. -/
def step (s : Scan) (c : Char) : Option (List Token × Scan) :=
  match s with
  | between => start c
  | word chars => if isWordChar c then some ([], word (chars ++ [c])) else restart s c
  | text chars => if c = '\'' then some ([], quote chars) else some ([], text (chars ++ [c]))
  | quote chars => if c = '\'' then some ([], text (chars ++ [c])) else restart s c
  | half first =>
    match first.double? c with
    | some token => some ([token], between)
    | none => restart s c

/-- The tokens that the rest of a text completes. -/
def tokens : Scan → List Char → Option (List Token)
  | s, [] => s.finish
  | s, c :: rest => (s.step c).bind fun taken => (tokens taken.2 rest).map (taken.1 ++ ·)

end Scan

/-- What a text completes, and what is known at its end. -/
def Scan.run : Scan → List Char → Option (List Token × Scan)
  | s, [] => some ([], s)
  | s, c :: rest =>
    (s.step c).bind fun taken => (run taken.2 rest).map fun more => (taken.1 ++ more.1, more.2)

/-- The tokens of a text. -/
def tokens (text : List Char) : Option (List Token) :=
  Scan.between.tokens text

/-! ## Texts in parts -/

variable {s s' last : Scan} {c : Char} {xs ys : List Char} {found more : List Token}

/-- The tokens behind a text depend on what is known at its end. -/
theorem tokens_append_of_run (h : s.run xs = some (found, last)) :
    s.tokens (xs ++ ys) = (last.tokens ys).map (found ++ ·) := by
  induction xs generalizing s found with
  | nil =>
    cases h
    exact Option.map_id'.symm
  | cons c rest ih =>
    rw [Scan.run] at h
    obtain ⟨taken, htaken, hrest⟩ := Option.bind_eq_some_iff.mp h
    obtain ⟨⟨more, behind⟩, hmore, heq⟩ := Option.map_eq_some_iff.mp hrest
    cases heq
    rw [List.cons_append, Scan.tokens, htaken, Option.bind_some, ih hmore, Option.map_map]
    simp [Function.comp_def]

/-- A string goes on up to the next quote. -/
theorem run_text (chars : List Char) (h : '\'' ∉ xs) :
    (Scan.text chars).run xs = some ([], .text (chars ++ xs)) := by
  induction xs generalizing chars with
  | nil => rw [Scan.run, List.append_nil]
  | cons c rest ih =>
    have hc : c ≠ '\'' := (List.ne_of_not_mem_cons h).symm
    rw [Scan.run, Scan.step, if_neg hc, Option.bind_some,
      ih (chars ++ [c]) (List.not_mem_of_not_mem_cons h), Option.map_some, List.append_assoc,
      List.singleton_append, List.nil_append]

/-- A character that neither goes on with a word nor completes an operator or a quote. -/
def Break (c : Char) : Prop :=
  isWordChar c = false ∧ c ≠ '\'' ∧ ∀ first : Half, first.double? c = none

theorem break_blank : Break ' ' := by
  refine ⟨by decide, by decide, fun first => ?_⟩
  cases first <;> rfl

theorem break_closing : Break ')' := by
  refine ⟨by decide, by decide, fun first => ?_⟩
  cases first <;> rfl

/-- A break completes what stands before it and starts afresh. -/
theorem step_of_break (hc : Break c) (h : s.finish = some found) :
    s.step c = (Scan.start c).map fun taken => (found ++ taken.1, taken.2) := by
  obtain ⟨hword, hquote, hhalf⟩ := hc
  have hrestart : s.restart c = (Scan.start c).map fun taken => (found ++ taken.1, taken.2) := by
    rw [Scan.restart, h, Option.bind_some]
  cases s with
  | between =>
    rw [← Option.some.inj h]
    exact Option.map_id'.symm
  | word chars => rw [Scan.step, hword, if_neg Bool.false_ne_true, hrestart]
  | text chars => cases h
  | quote chars => rw [Scan.step, if_neg hquote, hrestart]
  | half first => rw [Scan.step, hhalf, hrestart]

/-- The tokens before a break do not depend on what follows it. -/
theorem tokens_append_break (hc : Break c) (h : s.tokens xs = some found) :
    s.tokens (xs ++ c :: ys) = (tokens (c :: ys)).map (found ++ ·) := by
  induction xs generalizing s found with
  | nil =>
    rw [List.nil_append, tokens, Scan.tokens, Scan.tokens, step_of_break hc h,
      step_of_break hc (show Scan.between.finish = some [] from rfl)]
    simp [Option.bind_map, Option.map_bind, Function.comp_def, Option.map_map]
  | cons x rest ih =>
    rw [Scan.tokens] at h
    obtain ⟨taken, htaken, hrest⟩ := Option.bind_eq_some_iff.mp h
    obtain ⟨tail, htail, rfl⟩ := Option.map_eq_some_iff.mp hrest
    rw [List.cons_append, Scan.tokens, htaken, Option.bind_some, ih htail, Option.map_map]
    simp [Function.comp_def]

/-- A character that is a token, or nothing, on its own. -/
theorem tokens_cons_of_start (h : Scan.start c = some (found, .between)) :
    tokens (c :: ys) = (tokens ys).map (found ++ ·) := by
  rw [tokens, Scan.tokens, show Scan.between.step c = Scan.start c from rfl, h, Option.bind_some]
  rfl

/-- Two characters that are a token together. -/
theorem tokens_cons_cons_of_half {first : Half} {c' : Char} {token : Token}
    (h : Scan.start c = some ([], .half first)) (h' : first.double? c' = some token) :
    tokens (c :: c' :: ys) = (tokens ys).map (token :: ·) := by
  rw [tokens, Scan.tokens, show Scan.between.step c = Scan.start c from rfl, h, Option.bind_some,
    Scan.tokens, Scan.step, h', Option.bind_some, Option.map_map]
  rfl

/-- A character that is a token on its own, before one that does not go on with it. -/
theorem tokens_cons_cons_of_single {first : Half} {c' : Char}
    (h : Scan.start c = some ([], .half first)) (h' : first.double? c' = none) :
    tokens (c :: c' :: ys)
      = first.single?.bind fun token => (tokens (c' :: ys)).map (token :: ·) := by
  have hstep : (Scan.half first).step c' = (Scan.half first).restart c' := by
    rw [Scan.step, h']
  rw [tokens, Scan.tokens, show Scan.between.step c = Scan.start c from rfl, h, Option.bind_some,
    Scan.tokens, hstep, Scan.restart, Scan.finish, tokens, Scan.tokens,
    show Scan.between.step c' = Scan.start c' from rfl]
  cases first.single? with
  | none => rfl
  | some token =>
    cases Scan.start c' with
    | none => rfl
    | some taken =>
      show Option.map id (Option.map _ _) = Option.map _ (Option.map _ _)
      rw [Option.map_id, Option.map_map]
      rfl

/-- Only an equals sign completes a `!`, or another equals sign. -/
theorem double?_of_ne (h : c ≠ '=') :
    Half.bang.double? c = none ∧ Half.equals.double? c = none := by
  constructor <;> unfold Half.double? <;> split <;> first | rfl | contradiction

theorem tokens_blank (ys : List Char) : tokens (' ' :: ys) = tokens ys := by
  rw [tokens_cons_of_start rfl]
  exact Option.map_id'

/-! ## Behind a blank -/

/-- Whether the scanner stands inside a string. -/
def Scan.isInside : Scan → Bool
  | text _ => true
  | between | word _ | quote _ | half _ => false

theorem isInside_of_start (h : Scan.start c = some (found, last)) :
    last.isInside = (c == '\'') := by
  unfold Scan.start at h
  split at h
  case isTrue hblank =>
    have hquote : c ≠ '\'' := fun heq => by simp [heq, isBlank] at hblank
    cases h
    exact (beq_false_of_ne hquote).symm
  case isFalse =>
    split at h
    case isTrue hquote =>
      cases h
      rw [hquote]
      rfl
    case isFalse hquote =>
      rw [beq_false_of_ne hquote]
      split at h
      · cases h
        rfl
      · split at h <;> cases h <;> rfl

theorem isInside_of_restart (h : s.restart c = some (found, last)) :
    last.isInside = (c == '\'') := by
  obtain ⟨before, -, hbefore⟩ := Option.bind_eq_some_iff.mp h
  obtain ⟨taken, htaken, heq⟩ := Option.map_eq_some_iff.mp hbefore
  rw [← (Prod.mk.inj heq).2]
  exact isInside_of_start htaken

/-- Only a quote leads into a string or out of it. -/
theorem isInside_of_step (h : s.step c = some (found, last)) :
    last.isInside = (s.isInside ^^ (c == '\'')) := by
  cases s with
  | between => rw [isInside_of_start h, Scan.isInside, Bool.false_xor]
  | word chars =>
    rw [Scan.step] at h
    split at h
    case isTrue hword =>
      have hquote : c ≠ '\'' := fun heq => by simp [heq, isWordChar] at hword
      cases h
      simp [Scan.isInside, hquote]
    case isFalse => rw [isInside_of_restart h, Scan.isInside, Bool.false_xor]
  | text chars =>
    rw [Scan.step] at h
    split at h
    case isTrue hquote =>
      cases h
      simp [Scan.isInside, hquote]
    case isFalse hquote =>
      cases h
      simp [Scan.isInside, hquote]
  | quote chars =>
    rw [Scan.step] at h
    split at h
    case isTrue hquote =>
      cases h
      simp [Scan.isInside, hquote]
    case isFalse => rw [isInside_of_restart h, Scan.isInside, Bool.false_xor]
  | half first =>
    rw [Scan.step] at h
    split at h
    case h_1 token htoken =>
      have hquote : c ≠ '\'' := fun heq => by
        rw [heq] at htoken
        cases first <;> cases htoken
      cases h
      simp [Scan.isInside, hquote]
    case h_2 => rw [isInside_of_restart h, Scan.isInside, Bool.false_xor]

/-- One text cannot be well-formed both inside a string and outside of one: each of its quotes
leads in on one side and out on the other. -/
theorem isInside_eq_of_tokens (h : s.tokens xs = some found) (h' : s'.tokens xs = some more) :
    s.isInside = s'.isInside := by
  induction xs generalizing s s' found more with
  | nil =>
    have hout : ∀ {s : Scan} {found}, s.finish = some found → s.isInside = false := by
      intro s found hfinish
      cases s <;> first | rfl | cases hfinish
    rw [hout h, hout h']
  | cons c rest ih =>
    rw [Scan.tokens] at h h'
    -- Behind one character both scans agree, and the character turned both or neither.
    obtain ⟨taken, htaken, hrest⟩ := Option.bind_eq_some_iff.mp h
    obtain ⟨taken', htaken', hrest'⟩ := Option.bind_eq_some_iff.mp h'
    obtain ⟨tail, htail, -⟩ := Option.map_eq_some_iff.mp hrest
    obtain ⟨tail', htail', -⟩ := Option.map_eq_some_iff.mp hrest'
    have hsame := ih htail htail'
    rw [isInside_of_step htaken, isInside_of_step htaken'] at hsame
    simpa using hsame

/-- **Behind a blank, a well-formed text adds its tokens and nothing else**, and it mends nothing
that was malformed before the blank. -/
theorem tokens_append_blank (h : tokens ys = some more) (xs : List Char) :
    tokens (xs ++ ' ' :: ys) = (tokens xs).map (· ++ more) := by
  cases hxs : tokens xs with
  | some found =>
    rw [tokens, tokens_append_break break_blank hxs, tokens_blank, h]
    rfl
  | none =>
    -- Nothing malformed is mended, whatever the scanner knows where the text starts.
    have hnone : ∀ s : Scan, s.tokens xs = none → s.tokens (xs ++ ' ' :: ys) = none := by
      clear hxs
      induction xs with
      | nil =>
        intro s hs
        cases s with
        | between => cases hs
        | word chars => cases hs
        | quote chars => cases hs
        | text chars =>
          -- The string goes on behind the blank, where the text is well-formed outside of one.
          cases hin : Scan.tokens (.text chars) (' ' :: ys) with
          | none => exact hin
          | some inner =>
            have hout : Scan.between.tokens (' ' :: ys) = some more := by
              rw [← h, ← tokens_blank ys, tokens]
            exact Bool.noConfusion (isInside_eq_of_tokens hin hout)
        | half first =>
          -- No blank completes a half operator.
          cases first <;> first | rfl | cases hs
      | cons c rest ih =>
        intro s hs
        rw [Scan.tokens] at hs
        rw [List.cons_append, Scan.tokens]
        cases htaken : s.step c with
        | none => rfl
        | some taken =>
          rw [htaken, Option.bind_some, Option.map_eq_none_iff] at hs
          rw [Option.bind_some, ih taken.2 hs, Option.map_none]
    exact hnone .between hxs

end AgentGate.Expression
