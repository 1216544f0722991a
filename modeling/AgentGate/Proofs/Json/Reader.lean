import AgentGate.Json.Reader
import AgentGate.Proofs.Json.Token
import Mathlib.Data.List.Forall2

/-!
# Reading what is written

A value that is written, on one line or over several, is read as itself: the writer puts down the
characters of its tokens, and the reader puts a value together from these. Only numbers are at
stake, so the values here hold integers of 64 bits and no others.

- `Json.Exact`: such values.
- `Json.tokens`: the tokens of a value.
- `Json.Exact.scans_compactChars`, `Json.Exact.scans_prettyChars`: its characters are scanned into
  them.
- `Json.Exact.foldlM_tokens`: reading them delivers the value.
- `Json.ofText?_compact`, `Json.ofText?_pretty`: both together.
-/

namespace AgentGate.Json

open Reader

variable {value : Json} {items : List Json} {members : List (String × Json)} {frames : List Frame}
  {texts : List (List Char)} {groups : List (List Token)} {opening closing : Char}
  {first last : Token} {lead gap trail : List Char}

/-- The value holds integers of 64 bits and no other numbers. -/
inductive Exact : Json → Prop where
  | null : Exact .null
  | bool (b : Bool) : Exact (.bool b)
  | int {n : Int} (low : -Int.pow 2 63 ≤ n) (high : n < Int.pow 2 64) : Exact (.int n)
  | text (s : String) : Exact (.text s)
  | array {items : List Json} (h : ∀ item ∈ items, Exact item) : Exact (.array items)
  | object {members : List (String × Json)} (h : ∀ entry ∈ members, Exact entry.2) :
    Exact (.object members)

/-! ## Tokens of a value -/

mutual

/-- The tokens of a value. -/
def tokens : Json → List Token
  | .array items => .openArray :: [Token.comma].intercalate (itemTokens items) ++ [.closeArray]
  | .object members =>
    .openObject :: [Token.comma].intercalate (memberTokens members) ++ [.closeObject]
  | other => [.scalar other]

/-- The tokens of each item. -/
def itemTokens : List Json → List (List Token)
  | [] => []
  | item :: rest => tokens item :: itemTokens rest

/-- The tokens of each member. -/
def memberTokens : List (String × Json) → List (List Token)
  | [] => []
  | (key, value) :: rest => (.scalar (.text key) :: .colon :: tokens value) :: memberTokens rest

end

/-- The tokens of a member. -/
def entryTokens (entry : String × Json) : List Token :=
  .scalar (.text entry.1) :: .colon :: entry.2.tokens

theorem itemTokens_eq_map (items : List Json) : itemTokens items = items.map tokens := by
  induction items with
  | nil => rfl
  | cons item rest ih => rw [itemTokens, ih, List.map_cons]

theorem memberTokens_eq_map (members : List (String × Json)) :
    memberTokens members = members.map entryTokens := by
  induction members with
  | nil => rfl
  | cons entry rest ih => rw [memberTokens, ih, List.map_cons, entryTokens]

theorem compactItems_eq_map (items : List Json) : compactItems items = items.map compactChars := by
  induction items with
  | nil => rfl
  | cons item rest ih => rw [compactItems, ih, List.map_cons]

theorem compactMembers_eq_map (members : List (String × Json)) : compactMembers members
    = members.map fun entry => quoted entry.1 ++ ':' :: compactChars entry.2 := by
  induction members with
  | nil => rfl
  | cons entry rest ih => rw [compactMembers, ih, List.map_cons]

theorem prettyItems_eq_map (depth : Nat) (items : List Json) :
    prettyItems depth items = items.map (prettyChars depth) := by
  induction items with
  | nil => rfl
  | cons item rest ih => rw [prettyItems, ih, List.map_cons]

theorem prettyMembers_eq_map (depth : Nat) (members : List (String × Json)) :
    prettyMembers depth members
      = members.map fun entry => quoted entry.1 ++ ':' :: ' ' :: prettyChars depth entry.2 := by
  induction members with
  | nil => rfl
  | cons entry rest ih => rw [prettyMembers, ih, List.map_cons]

/-! ## Scanning written values -/

/-- Blanks keep what stands before them apart from what follows. -/
theorem apart_blank {pad rest : List Char} (hpad : pad.all isSpace = true) (hrest : Apart rest) :
    Apart (pad ++ rest) := by
  refine Apart.append (fun c hc => ?_) hrest
  have hspace := List.all_eq_true.mp hpad c (List.mem_of_mem_head? hc)
  rw [isSpace, Bool.or_eq_true, Bool.or_eq_true, Bool.or_eq_true] at hspace
  simp only [beq_iff_eq] at hspace
  rcases hspace with ((rfl | rfl) | rfl) | rfl <;> decide

/-- Written parts, with a comma and blanks between them. -/
theorem scans_separated {chars : List Char} {tokens : List Token} (hgap : gap.all isSpace = true)
    (h : List.Forall₂ Scans texts groups) (hend : Scans chars tokens) (hapart : Apart chars) :
    Scans ((',' :: gap).intercalate texts ++ chars)
      ([Token.comma].intercalate groups ++ tokens) := by
  induction h with
  | nil => exact hend
  | @cons text group texts groups hfirst hrest ih =>
    cases hrest with
    | nil =>
      rw [List.intercalate_singleton, List.intercalate_singleton]
      exact hfirst.append hend hapart
    | cons hsecond hmore =>
      rw [List.intercalate_cons_cons, List.intercalate_cons_cons, List.append_assoc,
        List.append_assoc, List.append_assoc, List.append_assoc]
      exact hfirst.append ((ih.blank hgap).mark rfl) (apart_cons (by decide))

/-- Written parts between brackets, with blanks before and behind them. -/
theorem scans_enclosed (hopening : Token.mark? opening = some first)
    (hclosing : Token.mark? closing = some last) (hlead : lead.all isSpace = true)
    (hgap : gap.all isSpace = true) (htrail : trail.all isSpace = true)
    (h : List.Forall₂ Scans texts groups) :
    Scans (opening :: lead ++ (',' :: gap).intercalate texts ++ trail ++ [closing])
      (first :: [Token.comma].intercalate groups ++ [last]) := by
  have hapart : Apart (trail ++ [closing]) := by
    refine apart_blank htrail (apart_cons ?_)
    rw [Token.mark?.eq_def] at hclosing
    split at hclosing
    case h_7 => cases hclosing
    all_goals decide
  have hend : Scans (trail ++ [closing]) [last] := (scans_nil.mark hclosing).blank htrail
  rw [List.append_assoc, List.append_assoc, List.cons_append, List.cons_append]
  exact ((scans_separated hgap h hend hapart).blank hlead).mark hopening

theorem isSpace_newline (depth : Nat) : (newline depth).all isSpace = true := by
  rw [newline, List.all_cons, List.all_replicate]
  simp [isSpace]

theorem scans_block (depth : Nat) (hopening : Token.mark? opening = some first)
    (hclosing : Token.mark? closing = some last) (h : List.Forall₂ Scans texts groups) :
    Scans (block opening closing depth texts)
      (first :: [Token.comma].intercalate groups ++ [last]) := by
  rw [block.eq_def]
  split
  case h_1 =>
    cases h
    exact (scans_nil.mark hclosing).mark hopening
  case h_2 =>
    exact scans_enclosed hopening hclosing (isSpace_newline _) (isSpace_newline _)
      (isSpace_newline _) h

theorem scans_line (hopening : Token.mark? opening = some first)
    (hclosing : Token.mark? closing = some last) (h : List.Forall₂ Scans texts groups) :
    Scans (opening :: [','].intercalate texts ++ [closing])
      (first :: [Token.comma].intercalate groups ++ [last]) := by
  have hblank : ([] : List Char).all isSpace = true := rfl
  have henclosed := scans_enclosed hopening hclosing hblank hblank hblank h
  rwa [List.append_nil, List.singleton_append] at henclosed

theorem forall₂_map {α : Type} {l : List α} {f : α → List Char} {f' : α → List Token}
    (h : ∀ a ∈ l, Scans (f a) (f' a)) : List.Forall₂ Scans (l.map f) (l.map f') := by
  rw [List.forall₂_map_left_iff, List.forall₂_map_right_iff, List.forall₂_same]
  exact h

/-- A simple value is one token. -/
theorem Exact.scans_scalar (h : value.Exact) (hitems : ∀ items, value ≠ .array items)
    (hmembers : ∀ members, value ≠ .object members) : Scans (scalar value) [.scalar value] := by
  cases h with
  | null => exact scans_word rfl rfl
  | bool b =>
    cases b with
    | true => exact scans_word rfl rfl
    | false => exact scans_word rfl rfl
  | int low high => exact scans_int low high
  | text s =>
    have hquoted := scans_nil.quoted s
    rwa [List.append_nil] at hquoted
  | array => exact absurd rfl (hitems _)
  | object => exact absurd rfl (hmembers _)

/-- The characters of a value on one line are scanned into its tokens. -/
theorem Exact.scans_compactChars (h : value.Exact) : Scans (compactChars value) value.tokens := by
  induction h with
  | null => exact Exact.null.scans_scalar nofun nofun
  | bool b => exact (Exact.bool b).scans_scalar nofun nofun
  | int low high => exact (Exact.int low high).scans_scalar nofun nofun
  | text s => exact (Exact.text s).scans_scalar nofun nofun
  | array _ ih =>
    rw [compactChars, tokens, compactItems_eq_map, itemTokens_eq_map]
    exact scans_line rfl rfl (forall₂_map ih)
  | object _ ih =>
    rw [compactChars, tokens, compactMembers_eq_map, memberTokens_eq_map]
    exact scans_line rfl rfl (forall₂_map fun entry hentry => ((ih entry hentry).mark rfl).quoted _)

/-- The characters of a value over several lines are scanned into its tokens. -/
theorem Exact.scans_prettyChars (h : value.Exact) (depth : Nat) :
    Scans (prettyChars depth value) value.tokens := by
  induction h generalizing depth with
  | null => exact Exact.null.scans_scalar nofun nofun
  | bool b => exact (Exact.bool b).scans_scalar nofun nofun
  | int low high => exact (Exact.int low high).scans_scalar nofun nofun
  | text s => exact (Exact.text s).scans_scalar nofun nofun
  | array _ ih =>
    rw [prettyChars, tokens, prettyItems_eq_map, itemTokens_eq_map]
    exact scans_block depth rfl rfl (forall₂_map fun item hitem => ih item hitem _)
  | object _ ih =>
    rw [prettyChars, tokens, prettyMembers_eq_map, memberTokens_eq_map]
    refine scans_block depth rfl rfl (forall₂_map fun entry hentry => ?_)
    have hblank : [' '].all isSpace = true := rfl
    exact (((ih entry hentry _).blank hblank).mark rfl).quoted _

/-! ## Reading tokens -/

/-- An item at the start of an array is read like one behind a comma. -/
theorem step_firstItem {token : Token} (h : token ≠ .closeArray) :
    step (.firstItem frames) token = step (.value (.array [] :: frames)) token := by
  cases token with
  | closeArray => exact absurd rfl h
  | openArray | openObject | closeObject | comma | colon | scalar => rfl

/-- No value starts with the end of an array. -/
theorem exists_tokens_eq_cons (value : Json) :
    ∃ start more, value.tokens = start :: more ∧ start ≠ .closeArray := by
  cases value with
  | array items => exact ⟨.openArray, _, by rw [tokens, List.cons_append], nofun⟩
  | object members => exact ⟨.openObject, _, by rw [tokens, List.cons_append], nofun⟩
  | null | bool | int | float | text => exact ⟨_, [], rfl, nofun⟩

/-- Items are gathered in front of those that are there. -/
theorem foldlM_items (done : List Json) (frames : List Frame) {item : Json}
    (h : ∀ other ∈ item :: items, ∀ frames,
      other.tokens.foldlM step (.value frames) = some (deliver other frames)) :
    ([Token.comma].intercalate ((item :: items).map tokens)).foldlM step
      (.value (.array done :: frames))
        = some (.afterItem ((item :: items).reverse ++ done) frames) := by
  induction items generalizing item done with
  | nil =>
    rw [List.map_singleton, List.intercalate_singleton, h item List.mem_cons_self]
    rfl
  | cons second rest ih =>
    obtain ⟨hitem, hrest⟩ := List.forall_mem_cons.mp h
    rw [List.map_cons, List.map_cons, List.intercalate_cons_cons, List.append_assoc,
      List.foldlM_append, hitem]
    show ([Token.comma].intercalate ((second :: rest).map tokens)).foldlM step
      (.value (.array (item :: done) :: frames)) = _
    rw [ih _ hrest, List.reverse_cons (a := item), List.append_assoc]
    rfl

/-- A member is gathered in front of those that are there. -/
theorem foldlM_entry {done : List (String × Json)} {entry : String × Json}
    (h : ∀ frames, entry.2.tokens.foldlM step (.value frames) = some (deliver entry.2 frames)) :
    (entryTokens entry).foldlM step (.key done frames)
      = some (.afterMember (entry :: done) frames) := by
  show entry.2.tokens.foldlM step (.value (.object done entry.1 :: frames)) = _
  rw [h]
  rfl

/-- Members are gathered in front of those that are there. -/
theorem foldlM_members (done : List (String × Json)) (frames : List Frame)
    {entry : String × Json} (h : ∀ other ∈ entry :: members, ∀ frames,
      other.2.tokens.foldlM step (.value frames) = some (deliver other.2 frames)) :
    ([Token.comma].intercalate ((entry :: members).map entryTokens)).foldlM step (.key done frames)
      = some (.afterMember ((entry :: members).reverse ++ done) frames) := by
  induction members generalizing entry done with
  | nil =>
    rw [List.map_singleton, List.intercalate_singleton,
      foldlM_entry (h entry List.mem_cons_self)]
    rfl
  | cons second rest ih =>
    obtain ⟨hentry, hrest⟩ := List.forall_mem_cons.mp h
    rw [List.map_cons, List.map_cons, List.intercalate_cons_cons, List.append_assoc,
      List.foldlM_append, foldlM_entry hentry]
    show ([Token.comma].intercalate ((second :: rest).map entryTokens)).foldlM step
      (.key (entry :: done) frames) = _
    rw [ih _ hrest, List.reverse_cons (a := entry), List.append_assoc]
    rfl

/-- Commas between parts leave the start of the first one where it is. -/
theorem exists_intercalate_eq_cons (start : Token) (more : List Token)
    (groups : List (List Token)) :
    ∃ others, [Token.comma].intercalate ((start :: more) :: groups) = start :: others := by
  cases groups with
  | nil => exact ⟨more, List.intercalate_singleton⟩
  | cons second rest =>
    rw [List.intercalate_cons_cons]
    exact ⟨_, rfl⟩

/-- The items of an array are gathered from its opening on. -/
theorem foldlM_firstItems (frames : List Frame) {item : Json}
    (h : ∀ other ∈ item :: items, ∀ frames,
      other.tokens.foldlM step (.value frames) = some (deliver other frames)) :
    ([Token.comma].intercalate ((item :: items).map tokens)).foldlM step (.firstItem frames)
      = some (.afterItem (item :: items).reverse frames) := by
  obtain ⟨start, more, htokens, hstart⟩ := exists_tokens_eq_cons item
  obtain ⟨others, hothers⟩ := exists_intercalate_eq_cons start more (items.map tokens)
  have hitems := foldlM_items [] frames h
  rw [List.map_cons, htokens, hothers, List.foldlM_cons] at hitems ⊢
  rw [step_firstItem hstart, hitems, List.append_nil]

/-- The members of an object are gathered from its opening on. -/
theorem foldlM_firstMembers (frames : List Frame) {entry : String × Json}
    (h : ∀ other ∈ entry :: members, ∀ frames,
      other.2.tokens.foldlM step (.value frames) = some (deliver other.2 frames)) :
    ([Token.comma].intercalate ((entry :: members).map entryTokens)).foldlM step
      (.firstKey frames) = some (.afterMember (entry :: members).reverse frames) := by
  obtain ⟨others, hothers⟩ := exists_intercalate_eq_cons (.scalar (.text entry.1))
    (.colon :: entry.2.tokens) (members.map entryTokens)
  have hmembers := foldlM_members [] frames h
  rw [List.map_cons, entryTokens, hothers, List.append_nil] at hmembers
  rw [List.map_cons, entryTokens, hothers, ← hmembers]
  -- A key at the start of an object is read like one behind a comma.
  rfl

/-- Reading the tokens of a value delivers it. -/
theorem Exact.foldlM_tokens (h : value.Exact) (frames : List Frame) :
    value.tokens.foldlM step (.value frames) = some (deliver value frames) := by
  induction h generalizing frames with
  | null | bool | int | text => rfl
  | @array items _ ih =>
    rw [tokens, itemTokens_eq_map, List.cons_append, List.foldlM_cons]
    show ([Token.comma].intercalate (items.map tokens) ++ [Token.closeArray]).foldlM step
      (.firstItem frames) = _
    cases items with
    | nil => rfl
    | cons item rest =>
      rw [List.foldlM_append, foldlM_firstItems frames ih]
      show some (deliver (.array (item :: rest).reverse.reverse) frames) = _
      rw [List.reverse_reverse]
  | @object members _ ih =>
    rw [tokens, memberTokens_eq_map, List.cons_append, List.foldlM_cons]
    show ([Token.comma].intercalate (members.map entryTokens) ++ [Token.closeObject]).foldlM step
      (.firstKey frames) = _
    cases members with
    | nil => rfl
    | cons entry rest =>
      rw [List.foldlM_append, foldlM_firstMembers frames ih]
      show some (deliver (.object (entry :: rest).reverse.reverse) frames) = _
      rw [List.reverse_reverse]

/-! ## Written texts -/

theorem Exact.ofText?_of_scans {chars : List Char} (h : value.Exact)
    (hchars : Scans chars value.tokens) {pad : String} (hpad : pad.toList.all isSpace = true) :
    ofText? (String.ofList chars ++ pad) = some value := by
  have hblank : Token.ofChars? pad.toList = some [] := by
    have hscans := Scans.blank hpad scans_nil [] apart_nil
    rw [List.append_nil, List.append_nil] at hscans
    rw [hscans, Token.ofChars?]
    rfl
  have hapart : Apart pad.toList := by
    have hapart := apart_blank hpad apart_nil
    rwa [List.append_nil] at hapart
  rw [ofText?, String.toList_append, String.toList_ofList, hchars _ hapart, hblank, Option.map_some,
    Option.bind_some, List.append_nil, ofTokens?, h.foldlM_tokens]
  rfl

/-- A value written on one line is read as itself. -/
theorem ofText?_compact (h : value.Exact) : ofText? value.compact = some value := by
  have htext : ofText? (value.compact ++ "") = some value :=
    h.ofText?_of_scans h.scans_compactChars rfl
  rwa [String.append_empty] at htext

/-- A value written over several lines, with blanks behind it, is read as itself. -/
theorem ofText?_pretty (h : value.Exact) {pad : String} (hpad : pad.toList.all isSpace = true) :
    ofText? (value.pretty ++ pad) = some value :=
  h.ofText?_of_scans (h.scans_prettyChars 0) hpad

end AgentGate.Json
