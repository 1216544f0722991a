import Mathlib.Data.String.Basic
import Mathlib.Data.List.Lex

/-!
# The order of texts and the order of their bytes

Texts are compared character by character. Their bytes in UTF-8 have the same order: of two
characters the smaller one has the smaller byte where their encodings first differ, and neither
encoding ends before that.

- `Text.bytes`: the bytes of a text.
- `Text.utf8EncodeChar_append_lt`: the order of two characters decides, whatever follows.
- `Text.lt_iff_bytes_lt`, `Text.le_iff_bytes_le`: the two orders of texts are one.
-/

namespace AgentGate.Text

/-- The bytes of a text. -/
def bytes (s : String) : List UInt8 :=
  s.toUTF8.data.toList

theorem bytes_eq_flatMap (s : String) : bytes s = s.toList.flatMap String.utf8EncodeChar := by
  have hbytes : s.toUTF8 = (s.toList.flatMap String.utf8EncodeChar).toByteArray := by
    conv => lhs; rw [← String.ofList_toList (s := s)]
    rfl
  rw [bytes, hbytes, List.data_toByteArray]

/-- Where the encodings of two characters first differ, that of the smaller one has the smaller
byte. Shorter encodings start with smaller bytes, so none ends before that. -/
theorem utf8EncodeChar_append_lt {c d : Char} (h : c < d) (rest rest' : List UInt8) :
    String.utf8EncodeChar c ++ rest < String.utf8EncodeChar d ++ rest' := by
  have hvalue : c.val.toNat < d.val.toNat := h
  have hbound : d.val.toNat < 0x110000 := by
    have hvalid := d.valid
    unfold UInt32.isValidChar Nat.isValidChar at hvalid
    omega
  unfold String.utf8EncodeChar
  dsimp only
  split_ifs <;>
    simp only [List.cons_append, List.nil_append, List.cons_lt_cons_iff, UInt8.lt_iff_toNat_lt,
      ← UInt8.toNat_inj, UInt8.toNat_ofNat'] <;>
    -- All bytes are below 256.
    simp (disch := omega) only [Nat.mod_eq_of_lt] <;>
    omega

theorem append_lt_append_iff {bytes more more' : List UInt8} :
    bytes ++ more < bytes ++ more' ↔ more < more' := by
  induction bytes with
  | nil => rfl
  | cons byte bytes ih =>
    have hirrefl : ¬ byte < byte := UInt8.lt_irrefl byte
    rw [List.cons_append, List.cons_append, List.cons_lt_cons_iff, or_iff_right hirrefl,
      and_iff_right rfl, ih]

/-- The first character in which two lists differ decides the order of their encodings. -/
theorem flatMap_utf8EncodeChar_lt_iff {cs ds : List Char} :
    cs.flatMap String.utf8EncodeChar < ds.flatMap String.utf8EncodeChar ↔ cs < ds := by
  induction cs generalizing ds with
  | nil =>
    cases ds with
    | nil => exact iff_of_false (List.lt_irrefl _) (List.lt_irrefl _)
    | cons d ds =>
      obtain ⟨byte, more, hbytes⟩ :=
        List.exists_cons_of_ne_nil (String.utf8EncodeChar_ne_nil (c := d))
      rw [List.flatMap_cons, List.flatMap_nil, hbytes]
      exact iff_of_true (List.nil_lt_cons _ _) (List.nil_lt_cons _ _)
  | cons c cs ih =>
    cases ds with
    | nil => exact iff_of_false (List.not_lt_nil _) (List.not_lt_nil _)
    | cons d ds =>
      rw [List.flatMap_cons, List.flatMap_cons, List.cons_lt_cons_iff]
      rcases lt_trichotomy c d with hless | rfl | hmore
      · exact iff_of_true (utf8EncodeChar_append_lt hless _ _) (.inl hless)
      · rw [append_lt_append_iff, ih, or_iff_right (lt_irrefl c), and_iff_right rfl]
      · refine iff_of_false (List.lt_asymm (utf8EncodeChar_append_lt hmore _ _)) ?_
        rintro (hless | ⟨rfl, -⟩)
        · exact lt_asymm hless hmore
        · exact lt_irrefl _ hmore

/-- **Texts are ordered like their bytes.** -/
theorem lt_iff_bytes_lt {s t : String} : s < t ↔ bytes s < bytes t := by
  rw [bytes_eq_flatMap, bytes_eq_flatMap, flatMap_utf8EncodeChar_lt_iff, String.lt_iff_toList_lt]

theorem le_iff_bytes_le {s t : String} : s ≤ t ↔ bytes s ≤ bytes t := by
  rw [← String.not_lt, ← List.not_lt, lt_iff_bytes_lt]

end AgentGate.Text
