/-
Text split at a separator and decimal numerals, over the standard library's
lists of characters.
-/
import Mathlib.Data.List.Infix
import Mathlib.Data.String.Basic
import Mathlib.Tactic.Common

namespace Text

/-- The pieces of a text between the separators; a text without separator is
its only piece. -/
def split (sep : Char) (s : String) : List String :=
  (s.toList.splitOn sep).map String.ofList

/-- The pieces joined with a separator between them. -/
def join (sep : Char) (pieces : List String) : String :=
  String.ofList ([sep].intercalate (pieces.map String.toList))

/-- Whether `piece` occurs in `s`. -/
def containsText (s piece : String) : Bool :=
  decide (piece.toList <:+: s.toList)

/-- The text before a suffix, when it ends with it. -/
def stripSuffix (s suffix : String) : Option String :=
  if suffix.toList <:+ s.toList then
    some (String.ofList
      (s.toList.take (s.toList.length - suffix.toList.length)))
  else none

/-- The characters that fill exactly the first `n` bytes of the UTF-8 form. -/
def takeBytes : Nat → List Char → Option (List Char)
  | 0, _ => some []
  | _ + 1, [] => none
  | n + 1, c :: rest =>
      if c.utf8Size ≤ n + 1 then
        (takeBytes (n + 1 - c.utf8Size) rest).map (c :: ·)
      else none

/-- Unicode white space, as `str::trim` understands it. -/
def isWhitespace (c : Char) : Bool :=
  let n := c.toNat
  decide (9 ≤ n ∧ n ≤ 13 ∨ n = 0x20 ∨ n = 0x85 ∨ n = 0xA0 ∨ n = 0x1680 ∨
    0x2000 ≤ n ∧ n ≤ 0x200A ∨ n = 0x2028 ∨ n = 0x2029 ∨ n = 0x202F ∨
    n = 0x205F ∨ n = 0x3000)

/-- The value of a non-empty text of digits, with an optional leading plus
sign, when it is below the limit. -/
def parseBelow (limit : Nat) (s : String) : Option Nat :=
  let digits := match s.toList with
    | '+' :: rest => rest
    | chars => chars
  if digits ≠ [] ∧ digits.all Char.isDigit then
    let n := Nat.ofDigitChars 10 digits 0
    if n < limit then some n else none
  else none

section

variable {sep : Char} {first rest : String}

/-- Whatever stands before a separator, the split of a text around it is the
split of its two sides. -/
theorem split_append_sep (first rest : String) :
    split sep (first ++ String.singleton sep ++ rest) =
      split sep first ++ split sep rest := by
  simp [split, List.append_assoc, List.splitOn_append_cons_self]

/-- A text without the separator is its only piece. -/
theorem split_eq_singleton (h : sep ∉ first.toList) :
    split sep first = [first] := by
  simp [split, List.splitOn_eq_singleton h]

theorem split_ne_nil (sep : Char) (s : String) : split sep s ≠ [] := by
  simp [split, List.splitOn_ne_nil]

/-- Only a text without the separator is one piece. -/
theorem split_eq_one {piece s : String} (h : split sep s = [piece]) :
    s = piece := by
  have hjoin : [sep].intercalate (s.toList.splitOn sep) = s.toList :=
    List.intercalate_splitOn sep
  simp only [split, List.map_eq_singleton_iff] at h
  obtain ⟨chars, hchars, rfl⟩ := h
  rw [hchars] at hjoin
  simpa [String.ext_iff] using hjoin.symm

/-- A text has as many pieces as separators, and one more. -/
theorem length_split_eq_one (sep : Char) (s : String) :
    (split sep s).length = 1 ↔ sep ∉ s.toList := by
  constructor
  · intro hone hmem
    obtain ⟨before, after, hs⟩ := List.append_of_mem hmem
    have hleft := List.length_pos_of_ne_nil (List.splitOn_ne_nil sep before)
    have hright := List.length_pos_of_ne_nil (List.splitOn_ne_nil sep after)
    simp only [split, List.length_map, hs, List.splitOn_append_cons_self,
      List.length_append] at hone
    omega
  · intro hnot
    rw [split_eq_singleton hnot, List.length_singleton]

theorem length_split_pos (sep : Char) (s : String) :
    0 < (split sep s).length :=
  List.length_pos_of_ne_nil (split_ne_nil sep s)

/-- A list of pieces without separator is read back after joining. -/
theorem split_join {pieces : List String} (hne : pieces ≠ [])
    (h : ∀ piece ∈ pieces, sep ∉ piece.toList) :
    split sep (join sep pieces) = pieces := by
  have hsplit : ([sep].intercalate (pieces.map String.toList)).splitOn sep =
      pieces.map String.toList :=
    List.splitOn_intercalate sep (by simpa using h) (by simpa using hne)
  simp [split, join, hsplit, Function.comp_def]

/-- No piece contains the separator. -/
theorem not_mem_of_mem_split {s piece : String} (h : piece ∈ split sep s) :
    sep ∉ piece.toList := by
  have hpieces : ∀ chars : List Char, ∀ part ∈ chars.splitOn sep,
      sep ∉ part := by
    intro chars
    induction chars with
    | nil => simp [List.splitOn_nil]
    | cons c rest ih =>
        intro part hpart
        rw [List.splitOn_cons_eq_if_modifyHead] at hpart
        by_cases hc : (c == sep) = true
        · rw [if_pos hc] at hpart
          rcases List.mem_cons.mp hpart with rfl | hpart
          · exact List.not_mem_nil
          · exact ih part hpart
        · rw [if_neg hc] at hpart
          cases hsplit : rest.splitOn sep with
          | nil => exact absurd hsplit (List.splitOn_ne_nil sep rest)
          | cons first others =>
              rw [hsplit] at hpart ih
              rcases List.mem_cons.mp hpart with rfl | hpart
              · have hne : c ≠ sep := fun heq => hc (beq_iff_eq.mpr heq)
                have hfirst := ih first List.mem_cons_self
                simp [hne.symm, hfirst]
              · exact ih part (List.mem_cons_of_mem _ hpart)
  obtain ⟨part, hpart, rfl⟩ := List.mem_map.mp h
  rw [String.toList_ofList]
  exact hpieces s.toList part hpart

/-- Joining loses nothing exactly when no piece contains the separator. -/
theorem split_join_iff {pieces : List String} (hne : pieces ≠ []) :
    split sep (join sep pieces) = pieces ↔
      ∀ piece ∈ pieces, sep ∉ piece.toList := by
  constructor
  · intro h piece hpiece
    rw [← h] at hpiece
    exact not_mem_of_mem_split hpiece
  · exact split_join hne

end

/-! ### Pieces and suffixes -/

theorem containsText_append (s piece : String) :
    containsText (s ++ piece) piece = true := by
  rw [containsText, String.toList_append, decide_eq_true_eq]
  exact (List.suffix_append _ _).isInfix

/-- A text without one of its characters does not contain the piece. -/
theorem containsText_of_not_mem {s piece : String} {c : Char}
    (hc : c ∈ piece.toList) (hs : c ∉ s.toList) :
    containsText s piece = false := by
  rw [containsText, decide_eq_false_iff_not]
  exact fun hpiece => hs (hpiece.subset hc)

theorem stripSuffix_append (s suffix : String) :
    stripSuffix (s ++ suffix) suffix = some s := by
  rw [stripSuffix, String.toList_append, if_pos (List.suffix_append _ _)]
  simp

theorem eq_append_of_stripSuffix {s suffix rest : String}
    (h : stripSuffix s suffix = some rest) : s = rest ++ suffix := by
  unfold stripSuffix at h
  split at h
  case isFalse => cases h
  case isTrue hsuffix =>
      obtain ⟨front, hfront⟩ := hsuffix
      simp only [Option.some.injEq, ← hfront, List.length_append,
        Nat.add_sub_cancel, List.take_left] at h
      rw [String.ext_iff, String.toList_append, ← h, ← hfront]
      simp

/-! ### Numerals -/

theorem toList_toString (n : Nat) :
    (toString n).toList = Nat.toDigits 10 n := by
  simp

theorem isDigit_of_mem_toString {n : Nat} {c : Char}
    (hc : c ∈ (toString n).toList) : c.isDigit = true := by
  rw [toList_toString] at hc
  exact Nat.isDigit_of_mem_toDigits (by decide) (by decide) hc

/-- A separator that is no digit does not occur in a numeral. -/
theorem sep_not_mem_toString {sep : Char} (hsep : sep.isDigit = false)
    (n : Nat) : sep ∉ (toString n).toList := fun hmem =>
  absurd (isDigit_of_mem_toString hmem) (by simp [hsep])

/-- A number below the limit is read back from its numeral. -/
theorem parseBelow_toString {limit n : Nat} (h : n < limit) :
    parseBelow limit (toString n) = some n := by
  have hdigits : (match (toString n).toList with
      | '+' :: rest => rest
      | chars => chars) = Nat.toDigits 10 n := by
    rw [← toList_toString]
    split
    · rename_i rest hplus
      have hmem : '+' ∈ (toString n).toList := by
        rw [hplus]
        exact List.mem_cons_self
      exact absurd (isDigit_of_mem_toString hmem) (by decide)
    · rfl
  have hall : (Nat.toDigits 10 n).all Char.isDigit = true :=
    List.all_eq_true.mpr fun c hc =>
      Nat.isDigit_of_mem_toDigits (by decide) (by decide) hc
  simp only [parseBelow, hdigits]
  rw [if_pos ⟨Nat.toDigits_ne_nil, hall⟩, Nat.ofDigitChars_ten_toDigits,
    if_pos h]

/-- Different numbers have different numerals. -/
theorem toString_inj {m n : Nat} (h : toString m = toString n) : m = n := by
  have hm : parseBelow (m + n + 1) (toString m) = some m :=
    parseBelow_toString (by omega)
  have hn : parseBelow (m + n + 1) (toString n) = some n :=
    parseBelow_toString (by omega)
  rw [h] at hm
  exact Option.some.inj (hm.symm.trans hn)

/-! ### Bytes -/

theorem not_isWhitespace_of_isDigit {c : Char} (h : c.isDigit = true) :
    ¬ isWhitespace c = true := by
  simp only [Char.isDigit, isWhitespace, Bool.and_eq_true,
    decide_eq_true_eq] at h ⊢
  have hzero : 48 ≤ c.toNat := h.1
  have hnine : c.toNat ≤ 57 := h.2
  omega

/-- Digits take one byte each. -/
theorem utf8Size_of_isDigit {c : Char} (h : c.isDigit = true) :
    c.utf8Size = 1 := by
  rw [Char.utf8Size_eq_one_iff]
  simp only [Char.isDigit, Bool.and_eq_true, decide_eq_true_eq] at h
  have hle : c.val ≤ '9'.val := h.2
  exact UInt32.le_trans hle (by decide)

theorem length_toString_le {n k : Nat} (hk : 0 < k) (h : n < 10 ^ k) :
    (toString n).toList.length ≤ k := by
  rw [toList_toString]
  exact (Nat.length_toDigits_le_iff (by decide) hk).mpr h

theorem utf8ByteSize_eq_length {s : String}
    (h : ∀ c ∈ s.toList, c.utf8Size = 1) :
    s.utf8ByteSize = s.toList.length := by
  rw [← String.utf8Len_toList]
  generalize s.toList = chars at h ⊢
  induction chars with
  | nil => rfl
  | cons c rest ih =>
      rw [List.forall_mem_cons] at h
      rw [String.utf8Len_cons, ih h.2, h.1, List.length_cons]

/-- In a text of one byte a character the bytes are counted by the
characters. -/
theorem takeBytes_eq_take {n : Nat} {chars : List Char}
    (hchars : ∀ c ∈ chars, c.utf8Size = 1) (hn : n ≤ chars.length) :
    takeBytes n chars = some (chars.take n) := by
  induction chars generalizing n with
  | nil =>
      rw [List.length_nil, Nat.le_zero] at hn
      subst hn
      rfl
  | cons c rest ih =>
      rw [List.forall_mem_cons] at hchars
      cases n with
      | zero => rfl
      | succ n =>
          have hrest := ih hchars.2 (Nat.le_of_succ_le_succ hn)
          simp [takeBytes, hchars.1, hrest]

end Text
