import AgentGate.Json.Token
import AgentGate.Json.Writer
import Mathlib

/-!
# Scanning what is written

Written JSON is scanned into the tokens of its value. Brackets, commas, colons and quoted texts end
by themselves; a number or a word goes on as long as its characters do, so that what follows it must
not be one of these.

- `Json.textBody?_quoted`: a quoted text is read up to its closing quote, whatever stands in it.
- `Json.number?_toString`: a written integer of 64 bits is read as itself.
- `Json.Scans`: some characters are scanned into some tokens, in front of anything that ends them.
- `Json.Scans.append`: one such row of characters behind another.
- `Json.Scans.quoted`, `Json.scans_int`, `Json.scans_word`: the tokens that are no marks.
-/

namespace AgentGate.Json

open Text

variable {c : Char} {rest body after chars chars' pad : List Char} {token : Token}
  {tokens tokens' : List Token}

/-! ## Quoted texts -/

theorem hexDigit?_digitChar : ∀ n < 16, hexDigit? (Nat.digitChar n) = some n := by
  decide

/-- The two hexadecimal digits of a control character. -/
theorem hexValue?_control {n : Nat} (h : n < 0x20) :
    hexValue? ['0', '0', Nat.digitChar (n / 16), Nat.digitChar (n % 16)] = some n := by
  have hhigh := hexDigit?_digitChar (n / 16) (by omega)
  have hlow := hexDigit?_digitChar (n % 16) (by omega)
  have hzero : hexDigit? '0' = some 0 := by decide
  simp only [hexValue?, valueInBase?, List.foldlM_cons, List.foldlM_nil, hzero, hhigh, hlow,
    Option.bind_eq_bind, Option.bind_some, Option.pure_def]
  rw [if_pos (by omega), Option.bind_some, if_pos (by omega), Option.bind_some, if_pos (by omega),
    Option.bind_some, if_pos (by omega), Option.bind_some]
  exact congrArg some (by omega)

theorem character?_toNat (c : Char) : character? c.toNat = some c := by
  have hvalid : c.toNat < 0xD800 ∨ 0xE000 ≤ c.toNat ∧ c.toNat < 0x110000 := by
    rcases c.valid with h | ⟨h, h'⟩
    · exact .inl h
    · exact .inr ⟨h, h'⟩
  rw [character?, if_pos (by simpa using hvalid), Char.ofNat_toNat]

/-- An escape with four digits stands for its character, whatever follows. -/
theorem textBody?_control (h : c.toNat < 0x20) :
    textBody? ('\\' :: 'u' :: '0' :: '0' :: Nat.digitChar (c.toNat / 16)
        :: Nat.digitChar (c.toNat % 16) :: rest)
      = (textBody? rest).map fun found => (c :: found.1, found.2) := by
  rw [textBody?.eq_def]
  split
  case h_3 heq =>
    -- Another escape follows, with which this one makes no pair of surrogates.
    simp only [List.cons.injEq] at heq
    obtain ⟨-, -, rfl, rfl, rfl, rfl, rfl⟩ := heq
    rw [hexValue?_control h]
    dsimp only [Option.bind_eq_bind, Option.bind_some]
    rw [character?_toNat]
    cases textBody? _ <;> rfl
  case h_4 heq =>
    simp only [List.cons.injEq] at heq
    obtain ⟨-, -, rfl, rfl, rfl, rfl, rfl⟩ := heq
    rw [hexValue?_control h]
    dsimp only [Option.bind_eq_bind, Option.bind_some]
    rw [character?_toNat]
    cases textBody? _ <;> rfl
  case h_1 heq => cases heq
  case h_2 heq => cases heq
  case h_5 hnot heq =>
    simp only [List.cons.injEq] at heq
    exact absurd heq.2.2.symm (hnot _ _ _ _ _ heq.2.1.symm)
  case h_6 hnot heq =>
    simp only [List.cons.injEq] at heq
    exact absurd heq.2.symm (hnot _ _ heq.1.symm)

/-- An escaped character stands for itself, whatever follows. -/
theorem textBody?_escape (c : Char) (rest : List Char) : textBody? (escape c ++ rest)
    = (textBody? rest).map fun found => (c :: found.1, found.2) := by
  have hsimple : ∀ letter c, simpleEscape? letter = some c → letter ≠ 'u' →
      textBody? ('\\' :: letter :: rest)
        = (textBody? rest).map fun found => (c :: found.1, found.2) := by
    intro letter c hescape hletter
    rw [textBody?]
    · rw [hescape]
      cases textBody? rest <;> rfl
    · rintro _ _ _ _ _ _ _ _ _ rfl
      exact absurd rfl hletter
    · rintro _ _ _ _ _ rfl
      exact absurd rfl hletter
  rw [escape.eq_def]
  split
  case h_1 => exact hsimple '"' '"' rfl (by decide)
  case h_2 => exact hsimple '\\' '\\' rfl (by decide)
  case h_3 => exact hsimple 'n' '\n' rfl (by decide)
  case h_4 => exact hsimple 'r' '\r' rfl (by decide)
  case h_5 => exact hsimple 't' '\t' rfl (by decide)
  case h_6 hquote hbackslash _ _ _ =>
    split
    case isTrue h =>
      obtain rfl : c = '\x08' := Char.toNat_inj.mp h
      exact hsimple 'b' '\x08' rfl (by decide)
    split
    case isTrue h =>
      obtain rfl : c = '\x0c' := Char.toNat_inj.mp h
      exact hsimple 'f' '\x0c' rfl (by decide)
    split
    case isTrue h => exact textBody?_control h
    case isFalse h =>
      -- The character is written as it is.
      rw [List.singleton_append, textBody?, if_neg h]
      · cases textBody? rest <;> rfl
      · exact hquote
      · exact fun _ _ _ _ _ _ _ _ _ heq => (hbackslash heq).elim
      · exact fun _ _ _ _ _ heq => (hbackslash heq).elim
      · exact fun _ _ heq => (hbackslash heq).elim

/-- A quoted text is read up to its closing quote. -/
theorem textBody?_quoted (body rest : List Char) :
    textBody? (body.flatMap escape ++ '"' :: rest) = some (body, rest) := by
  induction body with
  | nil => rw [List.flatMap_nil, List.nil_append, textBody?]
  | cons c body ih =>
    rw [List.flatMap_cons, List.append_assoc, textBody?_escape, ih]
    rfl

/-! ## Numbers -/

/-- Digits start with a zero only when they are no others. -/
theorem toDigits_ne_zero_cons {n : Nat} {first : Char} {more : List Char} :
    Nat.toDigits 10 n ≠ '0' :: first :: more := by
  induction n using Nat.strongRecOn generalizing first more with
  | ind n ih =>
    intro h
    rw [Nat.toDigits_eq_if (by decide)] at h
    split at h
    case isTrue => exact absurd (congrArg List.length h) (by simp)
    case isFalse hn =>
      -- The leading digit is that of the tenth part, which is not zero.
      cases htenth : Nat.toDigits 10 (n / 10) with
      | nil => exact Nat.toDigits_ne_nil htenth
      | cons digit others =>
        rw [htenth] at h
        obtain ⟨rfl, -⟩ := List.cons.inj h
        cases others with
        | cons second others => exact ih (n / 10) (by omega) htenth
        | nil =>
          rw [Nat.toDigits_eq_if (by decide)] at htenth
          split at htenth
          case isTrue =>
            have hzero : n / 10 = 0 := Nat.digitChar_eq_zero.mp (List.cons.inj htenth).1
            omega
          case isFalse =>
            have hlength := congrArg List.length htenth
            rw [List.length_append, List.length_singleton, List.length_singleton,
              Nat.add_eq_right] at hlength
            exact Nat.toDigits_ne_nil (List.length_eq_zero_iff.mp hlength)

theorem all_isDigit_toDigits (n : Nat) : (Nat.toDigits 10 n).all Char.isDigit = true :=
  List.all_eq_true.mpr fun _ hc => Nat.isDigit_of_mem_toDigits (by decide) (by decide) hc

theorem decimalValue?_toDigits (n : Nat) : decimalValue? (Nat.toDigits 10 n) = some n := by
  rw [decimalValue?, if_pos ⟨Nat.toDigits_ne_nil, all_isDigit_toDigits n⟩]
  exact congrArg some Nat.ofDigitChars_ten_toDigits

theorem wholeDigits?_toDigits (n : Nat) :
    wholeDigits? (Nat.toDigits 10 n) = some (Nat.toDigits 10 n) := by
  rw [wholeDigits?.eq_def]
  split
  case h_1 heq => exact absurd heq toDigits_ne_zero_cons
  case h_2 => exact if_pos ⟨Nat.toDigits_ne_nil, all_isDigit_toDigits n⟩

/-- A digit neither ends the digits before the point nor starts an exponent. -/
theorem ne_of_isDigit {c : Char} (h : c.isDigit = true) :
    c ≠ '.' ∧ c ≠ 'e' ∧ c ≠ 'E' ∧ c ≠ '-' := by
  refine ⟨?_, ?_, ?_, ?_⟩ <;> (rintro rfl; exact absurd h (by decide))

/-- Digits with a sign in front are read as the integer that they write, if it has 64 bits. -/
theorem number?_digits (negative : Bool) (n : Nat) (hzero : ¬(negative = true ∧ n = 0))
    (hlow : -Int.pow 2 63 ≤ if negative then -(n : Int) else n)
    (hhigh : (if negative then -(n : Int) else n) < Int.pow 2 64) :
    number? ((if negative then ['-'] else []) ++ Nat.toDigits 10 n)
      = some (.int (if negative then -(n : Int) else n)) := by
  have hdigit : ∀ c ∈ Nat.toDigits 10 n, c ≠ '.' ∧ c ≠ 'e' ∧ c ≠ 'E' ∧ c ≠ '-' := fun c hc =>
    ne_of_isDigit (List.all_eq_true.mp (all_isDigit_toDigits n) c hc)
  -- All digits stand before the exponent, and all of these before the point.
  have hmantissa : (Nat.toDigits 10 n).takeWhile (fun c => c != 'e' && c != 'E')
      = Nat.toDigits 10 n :=
    List.takeWhile_eq_self_iff.mpr fun c hc => by simp [(hdigit c hc).2.1, (hdigit c hc).2.2.1]
  have hwhole : (Nat.toDigits 10 n).takeWhile (fun c => c != '.') = Nat.toDigits 10 n :=
    List.takeWhile_eq_self_iff.mpr fun c hc => by simp [(hdigit c hc).1]
  have hpoint : (Nat.toDigits 10 n).dropWhile (fun c => c != '.') = [] :=
    List.dropWhile_eq_nil_iff.mpr fun c hc => by simp [(hdigit c hc).1]
  have hread : ∀ chars, (chars = '-' :: Nat.toDigits 10 n ∧ negative = true
      ∨ chars = Nat.toDigits 10 n ∧ negative = false) →
      number? chars = some (.int (if negative then -(n : Int) else n)) := by
    intro chars hchars
    unfold number?
    split
    case h_1 signed unsigned heq =>
      have hsigned : signed = negative ∧ unsigned = Nat.toDigits 10 n := by
        rcases hchars with ⟨rfl, rfl⟩ | ⟨rfl, rfl⟩
        · cases heq
          exact ⟨rfl, rfl⟩
        · split at heq
          case h_1 rest hminus => exact absurd rfl (hdigit '-' (hminus ▸ List.mem_cons_self)).2.2.2
          case h_2 =>
            cases heq
            exact ⟨rfl, rfl⟩
      obtain ⟨rfl, rfl⟩ := hsigned
      dsimp only
      rw [hmantissa, hwhole, hpoint, wholeDigits?_toDigits]
      simp only [fractionDigits?, Option.bind_eq_bind, Option.bind_some, List.append_nil,
        decimalValue?_toDigits]
      rw [if_pos ⟨trivial, trivial, hzero, hlow, hhigh⟩]
      rfl
  cases negative with
  | true => exact hread _ (.inl ⟨rfl, rfl⟩)
  | false => exact hread _ (.inr ⟨rfl, rfl⟩)

theorem toList_toString_ofNat (n : Nat) :
    (toString (Int.ofNat n)).toList = Nat.toDigits 10 n :=
  String.toList_ofList

theorem toList_toString_negSucc (n : Nat) :
    (toString (Int.negSucc n)).toList = '-' :: Nat.toDigits 10 (n + 1) := by
  show ("-" ++ String.ofList (Nat.toDigits 10 (n + 1))).toList = _
  rw [String.toList_append, String.toList_ofList, String.toList_ofList]
  rfl

/-- A written integer of 64 bits is read as itself. -/
theorem number?_toString {value : Int} (hlow : -Int.pow 2 63 ≤ value)
    (hhigh : value < Int.pow 2 64) : number? (toString value).toList = some (.int value) := by
  cases value with
  | ofNat n =>
    rw [toList_toString_ofNat]
    exact number?_digits false n (by simp) hlow hhigh
  | negSucc n =>
    rw [toList_toString_negSucc]
    exact number?_digits true (n + 1) (by simp) hlow hhigh

/-! ## Characters that are scanned into tokens -/

/-- Some characters do not go on with a number or a word in front of them. -/
def Apart (rest : List Char) : Prop :=
  ∀ c ∈ rest.head?, isNumberChar c = false ∧ c.isAlpha = false

/-- Some characters are scanned into some tokens, in front of anything apart from them. -/
def Scans (chars : List Char) (tokens : List Token) : Prop :=
  ∀ rest, Apart rest → Token.ofChars? (chars ++ rest) = (Token.ofChars? rest).map (tokens ++ ·)

theorem apart_nil : Apart [] := nofun

theorem apart_cons (h : isNumberChar c = false ∧ c.isAlpha = false) : Apart (c :: rest) := by
  intro head hhead
  rw [List.head?_cons, Option.mem_some_iff] at hhead
  rwa [← hhead]

theorem Apart.append (h : Apart chars) (hrest : Apart rest) : Apart (chars ++ rest) := by
  cases chars with
  | nil => exact hrest
  | cons => exact h

theorem scans_nil : Scans [] [] := fun rest _ => by
  rw [List.nil_append]
  exact Option.map_id'.symm

/-- What is scanned apart from what follows it can be scanned first. -/
theorem Scans.append (h : Scans chars tokens) (h' : Scans chars' tokens') (hapart : Apart chars') :
    Scans (chars ++ chars') (tokens ++ tokens') := fun rest hrest => by
  rw [List.append_assoc, h _ (hapart.append hrest), h' rest hrest, Option.map_map]
  simp only [Function.comp_def, List.append_assoc]

/-- Blanks in front are passed over. -/
theorem Scans.blank (hpad : pad.all isSpace = true) (h : Scans chars tokens) :
    Scans (pad ++ chars) tokens := fun rest hrest => by
  induction pad with
  | nil => exact h rest hrest
  | cons c pad ih =>
    rw [List.all_cons, Bool.and_eq_true] at hpad
    rw [List.cons_append, List.cons_append, Token.ofChars?, if_pos hpad.1]
    exact ih hpad.2

/-- A mark in front is a token. -/
theorem Scans.mark (hmark : Token.mark? c = some token) (h : Scans chars tokens) :
    Scans (c :: chars) (token :: tokens) := fun rest hrest => by
  have hspace : isSpace c = false ∧ c ≠ '"' := by
    rw [Token.mark?.eq_def] at hmark
    split at hmark
    case h_7 => cases hmark
    all_goals decide
  rw [List.cons_append, Token.ofChars?, if_neg (by simp [hspace.1]), if_neg hspace.2, hmark]
  show (Token.ofChars? (chars ++ rest)).map (token :: ·) = _
  rw [h rest hrest, Option.map_map]
  rfl

/-- A quoted text in front is a token, whatever follows. -/
theorem Scans.quoted (s : String) (h : Scans chars tokens) :
    Scans (quoted s ++ chars) (.scalar (.text s) :: tokens) := fun rest hrest => by
  have hbody : textBody? (s.toList.flatMap escape ++ '"' :: (chars ++ rest))
      = some (s.toList, chars ++ rest) := textBody?_quoted _ _
  have hchars : Json.quoted s ++ chars ++ rest
      = '"' :: (s.toList.flatMap escape ++ '"' :: (chars ++ rest)) := by
    simp only [Json.quoted, List.cons_append, List.append_assoc, List.nil_append]
  rw [hchars, Token.ofChars?, if_neg (by decide), if_pos rfl]
  split
  case h_1 body after heq =>
    rw [hbody, Option.some.injEq, Prod.mk.injEq] at heq
    obtain ⟨rfl, rfl⟩ := heq
    rw [h rest hrest, Option.map_map, String.ofList_toList]
    rfl
  case h_2 heq => rw [hbody] at heq; cases heq

/-! ## Words and numbers -/

/-- Characters of one kind stop in front of one that is of another. -/
theorem span_append {p : Char → Bool} (h : ∀ c ∈ chars, p c = true)
    (hrest : ∀ c ∈ rest.head?, p c = false) :
    (chars ++ rest).takeWhile p = chars ∧ (chars ++ rest).dropWhile p = rest := by
  have hstop : rest.takeWhile p = [] ∧ rest.dropWhile p = rest := by
    cases rest with
    | nil => exact ⟨rfl, rfl⟩
    | cons head more =>
      have hhead := hrest head rfl
      exact ⟨List.takeWhile_cons_of_neg (by simp [hhead]),
        List.dropWhile_cons_of_neg (by simp [hhead])⟩
  rw [List.takeWhile_append_of_pos h, List.dropWhile_append_of_pos h, hstop.1, hstop.2,
    List.append_nil]
  exact ⟨rfl, rfl⟩

/-- The characters that words and numbers are written with stand for no other token. -/
theorem plain_of_isAlpha_or_isNumberChar (h : c.isAlpha = true ∨ isNumberChar c = true) :
    isSpace c = false ∧ c ≠ '"' ∧ Token.mark? c = none := by
  have hnot : ∀ other, c = other → ¬(other.isAlpha = true ∨ isNumberChar other = true) → False :=
    fun other heq hother => hother (heq ▸ h)
  refine ⟨?_, fun heq => hnot _ heq (by decide), ?_⟩
  · rw [isSpace]
    simp only [Bool.or_eq_false_iff, beq_eq_false_iff_ne]
    exact ⟨⟨⟨fun heq => hnot _ heq (by decide), fun heq => hnot _ heq (by decide)⟩,
      fun heq => hnot _ heq (by decide)⟩, fun heq => hnot _ heq (by decide)⟩
  · rw [Token.mark?.eq_def]
    split
    case h_7 => rfl
    all_goals exact (hnot _ rfl (by decide)).elim

/-- A word is a token. -/
theorem scans_word {value : Json} {first : Char} {more : List Char}
    (hword : word? (first :: more) = some value)
    (halpha : (first :: more).all Char.isAlpha = true) :
    Scans (first :: more) [.scalar value] := fun rest hrest => by
  obtain ⟨hfirst, hmore⟩ := List.forall_mem_cons.mp (List.all_eq_true.mp halpha)
  obtain ⟨hspace, hquote, hmark⟩ := plain_of_isAlpha_or_isNumberChar (.inl hfirst)
  obtain ⟨htake, hdrop⟩ := span_append hmore fun c hc => (hrest c hc).2
  rw [List.cons_append, Token.ofChars?, if_neg (by simp [hspace]), if_neg hquote, hmark]
  dsimp only
  rw [if_pos hfirst, htake, hdrop, hword]
  cases Token.ofChars? rest <;> rfl

/-- A number that starts with a digit or a sign is a token. -/
theorem scans_number {value : Json} {first : Char} {more : List Char}
    (hnumber : number? (first :: more) = some value) (hfirst : first.isAlpha = false)
    (hchars : ∀ c ∈ first :: more, isNumberChar c = true) :
    Scans (first :: more) [.scalar value] := fun rest hrest => by
  obtain ⟨hhead, hmore⟩ := List.forall_mem_cons.mp hchars
  obtain ⟨hspace, hquote, hmark⟩ := plain_of_isAlpha_or_isNumberChar (.inr hhead)
  obtain ⟨htake, hdrop⟩ := span_append hmore fun c hc => (hrest c hc).1
  rw [List.cons_append, Token.ofChars?, if_neg (by simp [hspace]), if_neg hquote, hmark]
  dsimp only
  rw [if_neg (by simp [hfirst]), htake, hdrop, hnumber]
  cases Token.ofChars? rest <;> rfl

/-- An integer is written with digits, and perhaps with a sign in front. -/
theorem exists_toString_eq_cons (value : Int) : ∃ first more,
    (toString value).toList = first :: more ∧ first.isAlpha = false
      ∧ ∀ c ∈ first :: more, isNumberChar c = true := by
  have hdigits : ∀ n, ∀ c ∈ Nat.toDigits 10 n, c.isAlpha = false ∧ isNumberChar c = true := by
    intro n c hc
    have hdigit := List.all_eq_true.mp (all_isDigit_toDigits n) c hc
    refine ⟨?_, by simp [isNumberChar, hdigit]⟩
    grind [Char.isAlpha, Char.isUpper, Char.isLower, Char.isDigit, UInt32.le_iff_toNat_le]
  cases value with
  | ofNat n =>
    obtain ⟨first, more, heq⟩ := List.exists_cons_of_ne_nil (Nat.toDigits_ne_nil (n := n) (b := 10))
    rw [toList_toString_ofNat, heq]
    exact ⟨first, more, rfl, (hdigits n first (heq ▸ List.mem_cons_self)).1,
      fun c hc => (hdigits n c (heq ▸ hc)).2⟩
  | negSucc n =>
    rw [toList_toString_negSucc]
    exact ⟨'-', _, rfl, by decide,
      List.forall_mem_cons.mpr ⟨by decide, fun c hc => (hdigits _ c hc).2⟩⟩

theorem scans_int {value : Int} (hlow : -Int.pow 2 63 ≤ value) (hhigh : value < Int.pow 2 64) :
    Scans (toString value).toList [.scalar (.int value)] := by
  have hnumber := number?_toString hlow hhigh
  obtain ⟨first, more, heq, hfirst, hchars⟩ := exists_toString_eq_cons value
  rw [heq] at hnumber ⊢
  exact scans_number hnumber hfirst hchars

end AgentGate.Json
