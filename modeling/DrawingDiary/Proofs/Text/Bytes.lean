import DrawingDiary.Text.Digits
import DrawingDiary.Text.Split
import Mathlib.Data.String.Basic

/-!
# Texts as bytes

A text is stored as its bytes in UTF-8, and a position in it may be counted in bytes. The bytes
come in the order of the characters (`bytes_lt_bytes_iff`), so a list of names that is sorted
as texts is sorted as bytes. A cut at a byte position succeeds when the position is between two
characters and not inside of one (`splitAtByte?_eq_some_iff`). All bytes of a text are digits
when all of its characters are (`all_isDigitByte_bytes`).
-/

namespace DrawingDiary.Text

def bytes (s : List Char) : List UInt8 := s.flatMap String.utf8EncodeChar

def isDigitByte (b : UInt8) : Bool := 48 ≤ b && b ≤ 57

/-- The parts of a text before and after a byte position. There are none when the position is
inside of a character or behind the end. -/
def splitAtByte? : Nat → List Char → Option (List Char × List Char)
  | 0, s => some ([], s)
  | _ + 1, [] => none
  | n + 1, c :: s =>
    if c.utf8Size ≤ n + 1 then
      (splitAtByte? (n + 1 - c.utf8Size) s).map fun parts => (c :: parts.1, parts.2)
    else none

section Order

theorem toNat_val_lt (c : Char) : c.val.toNat < 0x110000 := by
  rcases c.valid with h | h
  · exact Nat.lt_trans h (by decide)
  · exact h.2

theorem cons_ofNat_lt_cons_ofNat {a b : Nat} (ha : a < 256) (hb : b < 256) {s t : List UInt8} :
    UInt8.ofNat a :: s < UInt8.ofNat b :: t ↔ a < b ∨ a = b ∧ s < t := by
  rw [List.cons_lt_cons_iff, UInt8.lt_iff_toNat_lt, ← UInt8.toNat_inj,
    UInt8.toNat_ofNat_of_lt' ha, UInt8.toNat_ofNat_of_lt' hb]

/-- The bytes of a smaller character come before those of a larger one, whatever follows them. -/
theorem utf8EncodeChar_append_lt {c d : Char} (h : c < d) (s t : List UInt8) :
    String.utf8EncodeChar c ++ s < String.utf8EncodeChar d ++ t := by
  have hlt : c.val.toNat < d.val.toNat := h
  have hbound := toNat_val_lt d
  simp only [String.utf8EncodeChar]
  generalize c.val.toNat = m at hlt
  generalize d.val.toNat = n at hlt hbound
  -- Where both take four bytes, the six-bit groups of the numbers are compared in turn.
  have groups : m / 262144 < n / 262144 ∨ m / 262144 = n / 262144 ∧
      (m / 4096 % 64 < n / 4096 % 64 ∨ m / 4096 % 64 = n / 4096 % 64 ∧
        (m / 64 % 64 < n / 64 % 64 ∨ m / 64 % 64 = n / 64 % 64 ∧ m % 64 < n % 64)) := by
    omega
  have hm : m / 262144 % 8 = m / 262144 := Nat.mod_eq_of_lt (by omega)
  have hn : n / 262144 % 8 = n / 262144 := Nat.mod_eq_of_lt (by omega)
  repeat' split
  all_goals
    simp (disch := omega) only [List.cons_append, List.nil_append, cons_ofNat_lt_cons_ofNat, hm,
      hn, Nat.add_lt_add_iff_right, Nat.add_right_cancel_iff]
    omega

theorem bytes_lt_bytes_of_lt {s t : List Char} (h : s < t) : bytes s < bytes t := by
  induction s generalizing t with
  | nil =>
      cases t with
      | nil => exact absurd h (List.lt_irrefl [])
      | cons d t =>
          obtain ⟨b, rest, hb⟩ := List.exists_cons_of_ne_nil (String.utf8EncodeChar_ne_nil (c := d))
          rw [bytes, bytes, List.flatMap_cons, hb]
          exact List.nil_lt_cons _ _
  | cons c s ih =>
      cases t with
      | nil => exact absurd h (List.not_lt_nil _)
      | cons d t =>
          rw [bytes, bytes, List.flatMap_cons, List.flatMap_cons]
          rcases List.cons_lt_cons_iff.mp h with hcd | ⟨rfl, hst⟩
          · exact utf8EncodeChar_append_lt hcd _ _
          · exact List.append_left_lt (ih hst)

/-- The order of texts is the order of their bytes. -/
theorem bytes_lt_bytes_iff {s t : List Char} : bytes s < bytes t ↔ s < t := by
  refine ⟨fun h => ?_, bytes_lt_bytes_of_lt⟩
  rcases lt_trichotomy s t with hlt | rfl | hgt
  · exact hlt
  · exact absurd h (List.lt_irrefl _)
  · exact absurd h (List.lt_asymm (bytes_lt_bytes_of_lt hgt))

theorem bytes_le_bytes_iff {a b : String} : bytes a.toList ≤ bytes b.toList ↔ a ≤ b := by
  rw [← not_lt, String.lt_iff_toList_lt, ← bytes_lt_bytes_iff]
  rfl

end Order

section Cuts

variable {n : Nat} {s before after : List Char}

/-- A text is cut where the bytes of the first part end. -/
theorem splitAtByte?_eq_some_iff :
    splitAtByte? n s = some (before, after) ↔ s = before ++ after ∧ String.utf8Len before = n := by
  induction s generalizing n before with
  | nil =>
      cases n with
      | zero => cases before <;> simp [splitAtByte?, eq_comm]
      | succ n => cases before <;> simp [splitAtByte?]
  | cons c s ih =>
      have hpos := c.utf8Size_pos
      cases n with
      | zero =>
          cases before with
          | nil => simp [splitAtByte?, eq_comm]
          | cons d before =>
              have hd := d.utf8Size_pos
              simp only [splitAtByte?, Option.some.injEq, Prod.mk.injEq, String.utf8Len_cons]
              exact iff_of_false (fun h => by cases h.1) (fun h => by omega)
      | succ n =>
          cases before with
          | nil => simp [splitAtByte?]
          | cons d before =>
              rw [List.cons_append, List.cons.injEq, String.utf8Len_cons, splitAtByte?]
              by_cases hfits : c.utf8Size ≤ n + 1
              · simp only [if_pos hfits, Option.map_eq_some_iff, Prod.mk.injEq, List.cons.injEq,
                  Prod.exists]
                constructor
                · rintro ⟨first, rest, hsplit, ⟨rfl, rfl⟩, rfl⟩
                  obtain ⟨hs, hlength⟩ := ih.mp hsplit
                  exact ⟨⟨rfl, hs⟩, by omega⟩
                · rintro ⟨⟨rfl, hs⟩, hlength⟩
                  exact ⟨before, after, ih.mpr ⟨hs, by omega⟩, ⟨rfl, rfl⟩, rfl⟩
              · rw [if_neg hfits]
                refine iff_of_false (by simp) ?_
                rintro ⟨⟨rfl, -⟩, hlength⟩
                omega

end Cuts

section Digits

theorem isDigitByte_ofNat {n : Nat} (h : n < 256) :
    isDigitByte (UInt8.ofNat n) = decide (48 ≤ n ∧ n ≤ 57) := by
  have hn : (UInt8.ofNat n).toNat = n := UInt8.toNat_ofNat_of_lt' h
  rw [Bool.eq_iff_iff]
  simp [isDigitByte, UInt8.le_iff_toNat_le, hn]

theorem isDigit_eq (c : Char) : c.isDigit = decide (48 ≤ c.val.toNat ∧ c.val.toNat ≤ 57) := by
  rw [Bool.eq_iff_iff]
  simp [Char.isDigit, UInt32.le_iff_toNat_le]

/-- A digit is one byte, and in any other character a byte is no digit. -/
theorem all_isDigitByte_utf8EncodeChar (c : Char) :
    (String.utf8EncodeChar c).all isDigitByte = c.isDigit := by
  have hbound := toNat_val_lt c
  rw [isDigit_eq, String.utf8EncodeChar]
  generalize c.val.toNat = n at hbound
  split
  next hone => simp [isDigitByte_ofNat (show n < 256 by omega)]
  next hmore =>
    have hother : ¬ (48 ≤ n ∧ n ≤ 57) := by omega
    have hlast : ¬ (48 ≤ n % 64 + 128 ∧ n % 64 + 128 ≤ 57) := by omega
    have hbyte : isDigitByte (UInt8.ofNat (n % 64 + 128)) = false := by
      rw [isDigitByte_ofNat (by omega), decide_eq_false hlast]
    rw [decide_eq_false hother]
    repeat' split
    all_goals simp only [List.all_cons, hbyte, Bool.false_and, Bool.and_false]

theorem all_isDigitByte_bytes (s : List Char) : (bytes s).all isDigitByte = s.all Char.isDigit := by
  simp only [bytes, List.all_flatMap, all_isDigitByte_utf8EncodeChar]

end Digits

end DrawingDiary.Text
