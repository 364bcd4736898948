import Mathlib

/-!
The string operations the program takes from its standard library, on lists of characters.

A string is the sequence of its Unicode scalar values. Whitespace is the property
`White_Space` and control characters are the category `Cc`, the tests of the standard
library; trimming and splitting follow its documentation.
-/

namespace Pureflow.Lib.Text

/-- The Unicode property `White_Space`. -/
def isWhitespace (c : Char) : Bool :=
  let n := c.toNat
  (9 ≤ n && n ≤ 13) || n == 0x20 || n == 0x85 || n == 0xA0 || n == 0x1680 ||
    (0x2000 ≤ n && n ≤ 0x200A) || n == 0x2028 || n == 0x2029 || n == 0x202F || n == 0x205F ||
    n == 0x3000

/-- The Unicode category `Cc`. -/
def isControl (c : Char) : Bool :=
  let n := c.toNat
  n ≤ 0x1F || (0x7F ≤ n && n ≤ 0x9F)

/-- The characters between the leading and the trailing whitespace. -/
def trim (s : List Char) : List Char :=
  ((s.dropWhile isWhitespace).reverse.dropWhile isWhitespace).reverse

lemma trim_eq_nil {s : List Char} : trim s = [] ↔ ∀ c ∈ s, isWhitespace c = true := by
  unfold trim
  rw [List.reverse_eq_nil_iff, List.dropWhile_eq_nil_iff]
  refine ⟨fun h c hc => ?_, fun h c hc => ?_⟩
  · by_cases hd : s.dropWhile isWhitespace = []
    · exact List.dropWhile_eq_nil_iff.mp hd c hc
    · -- the first character kept is not whitespace, yet it occurs in the reversed rest
      have hhead := List.head_dropWhile_not isWhitespace hd
      have := h _ (List.mem_reverse.mpr (List.head_mem hd))
      rw [hhead] at this
      exact absurd this (by simp)
  · exact h c (List.dropWhile_subset _ (List.mem_reverse.mp hc))

/-- A text that is empty or only whitespace. -/
def isBlank (s : String) : Bool := (trim s.toList).isEmpty

/-- The pieces of a text between the occurrences of a separator. -/
def split (s : String) (sep : Char) : List String := (s.toList.splitOn sep).map String.ofList

example : split "a..b" '.' = ["a", "", "b"] := by decide

lemma length_le_utf8ByteSize (s : String) : s.length ≤ s.utf8ByteSize := by
  have hlist (l : List Char) : l.length ≤ (String.ofList l).utf8ByteSize := by
    induction l with
    | nil => simp
    | cons c l ih =>
      have hpos := c.utf8Size_pos
      rw [String.ofList_cons, String.utf8ByteSize_append, String.utf8ByteSize_singleton,
        List.length_cons]
      omega
  have h := hlist s.toList
  rwa [String.ofList_toList, String.length_toList] at h

section Digits

lemma any_append_eq_false {p : Char → Bool} {s t : String} (hs : s.toList.any p = false)
    (ht : t.toList.any p = false) : (s ++ t).toList.any p = false := by
  rw [String.toList_append, List.any_append, hs, ht]
  rfl

lemma repr_any_eq_false {p : Char → Bool} (hp : ∀ c : Char, c.isDigit → p c = false) (n : ℕ) :
    (toString n).toList.any p = false := by
  have hrepr : toString n = String.ofList (Nat.toDigits 10 n) := rfl
  rw [hrepr, String.toList_ofList, List.any_eq_false]
  intro c hc
  simpa using hp c (Nat.isDigit_of_mem_toDigits (by decide) (by decide) hc)

lemma toNat_of_isDigit {c : Char} (h : c.isDigit) : 48 ≤ c.toNat ∧ c.toNat ≤ 57 := by
  simp only [Char.isDigit, Bool.and_eq_true, decide_eq_true_eq] at h
  exact h

lemma isWhitespace_of_isDigit {c : Char} (h : c.isDigit) : isWhitespace c = false := by
  have := toNat_of_isDigit h
  simp [isWhitespace]
  omega

lemma isControl_of_isDigit {c : Char} (h : c.isDigit) : isControl c = false := by
  have := toNat_of_isDigit h
  simp [isControl]
  omega

end Digits

end Pureflow.Lib.Text
