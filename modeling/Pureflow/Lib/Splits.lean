import Mathlib

/-!
Texts put together of pieces: the pieces that the parts of a pattern take, and pieces with a
separator between them, which can be told apart again where they do not hold it.
-/

namespace Pureflow.Lib

variable {α κ : Type}

section Patterns

variable {takes : κ → List α → Prop} {k : κ} {pattern : List κ} {value : List α}

/-- The value falls into consecutive pieces, one for each part of the pattern, that these parts
take. -/
def Splits (takes : κ → List α → Prop) (pattern : List κ) (value : List α) : Prop :=
  ∃ pieces : List (List α), pieces.flatten = value ∧ List.Forall₂ takes pattern pieces

lemma splits_nil : Splits takes [] value ↔ value = [] := by
  constructor
  · rintro ⟨pieces, rfl, h⟩
    cases h
    rfl
  · rintro rfl
    exact ⟨[], rfl, .nil⟩

lemma splits_cons : Splits takes (k :: pattern) value ↔
    ∃ piece rest, value = piece ++ rest ∧ takes k piece ∧ Splits takes pattern rest := by
  constructor
  · rintro ⟨pieces, rfl, h⟩
    cases h with
    | @cons _ piece _ pieces hpiece hpieces =>
      exact ⟨piece, pieces.flatten, rfl, hpiece, pieces, rfl, hpieces⟩
  · rintro ⟨piece, rest, rfl, hpiece, pieces, rfl, hpieces⟩
    exact ⟨piece :: pieces, rfl, .cons hpiece hpieces⟩

end Patterns

section Separators

variable {sep text before : List α} {c : α}

/-- What stands before the first occurrence of a separator. -/
structure Before (sep text before : List α) : Prop where
  occurs : before ++ sep <+: text
  first (earlier : List α) : earlier ++ sep <+: text → before.length ≤ earlier.length

lemma before_nil (h : sep <+: text) : Before sep text [] := ⟨h, fun _ _ => Nat.zero_le _⟩

lemma before_cons (h : ¬ sep <+: c :: text) :
    Before sep (c :: text) before ↔ ∃ b, before = c :: b ∧ Before sep text b := by
  constructor
  · rintro ⟨hoccurs, hfirst⟩
    cases before with
    | nil => exact absurd hoccurs h
    | cons d b =>
      rw [List.cons_append, List.cons_prefix_cons] at hoccurs
      obtain ⟨rfl, hoccurs⟩ := hoccurs
      refine ⟨b, rfl, hoccurs, fun earlier hearlier => ?_⟩
      have hle := hfirst (d :: earlier) (List.cons_prefix_cons.mpr ⟨rfl, hearlier⟩)
      simpa using hle
  · rintro ⟨b, rfl, hoccurs, hfirst⟩
    refine ⟨List.cons_prefix_cons.mpr ⟨rfl, hoccurs⟩, fun earlier hearlier => ?_⟩
    cases earlier with
    | nil => exact absurd hearlier h
    | cons d e =>
      rw [List.cons_append, List.cons_prefix_cons] at hearlier
      have hle := hfirst e hearlier.2
      simpa using hle

lemma Before.unique {b b' : List α} (h : Before sep text b) (h' : Before sep text b') : b = b' := by
  have hlength := le_antisymm (h.first b' h'.occurs) (h'.first b h.occurs)
  have hb := (List.prefix_append b sep).trans h.occurs
  have hb' := (List.prefix_append b' sep).trans h'.occurs
  exact (List.prefix_of_prefix_length_le hb hb' hlength.le).eq_of_length hlength

lemma eq_of_intercalate_eq [DecidableEq α] {words words' : List (List α)}
    (hwords : ∀ w ∈ words, c ∉ w) (hne : words ≠ []) (hwords' : ∀ w ∈ words', c ∉ w)
    (hne' : words' ≠ []) (h : [c].intercalate words = [c].intercalate words') :
    words = words' := by
  have hsplit := congrArg (List.splitOn c) h
  rwa [List.splitOn_intercalate c hwords hne, List.splitOn_intercalate c hwords' hne'] at hsplit

lemma eq_of_append_cons_eq {a a' b b' : List α} (hb : c ∉ b) (hb' : c ∉ b')
    (h : a ++ c :: b = a' ++ c :: b') : a = a' ∧ b = b' := by
  rcases List.append_eq_append_iff.mp h with ⟨w, rfl, hw⟩ | ⟨w, rfl, hw⟩
  · cases w with
    | nil => simpa using hw
    | cons d w =>
      have hmem : c ∈ b := by
        rw [List.cons_append, List.cons.injEq] at hw
        simp [hw.2]
      exact absurd hmem hb
  · cases w with
    | nil => simpa using hw.symm
    | cons d w =>
      have hmem : c ∈ b' := by
        rw [List.cons_append, List.cons.injEq] at hw
        simp [hw.2]
      exact absurd hmem hb'

/-- Two pairs of texts run into each other at a separator `c s c`: what stands before it goes on
where it ends in the other pair, and what follows it there holds it once more. -/
def RunInto (c : α) (s a b a' b' : List α) : Prop :=
  ∃ u, a' ++ [c] = a ++ (c :: s ++ [c]) ++ u ∧ b = u ++ (s ++ [c]) ++ b'

lemma append_eq_of_runInto {s a b a' b' : List α} (h : RunInto c s a b a' b') :
    a ++ (c :: s ++ [c]) ++ b = a' ++ (c :: s ++ [c]) ++ b' := by
  obtain ⟨u, ha', rfl⟩ := h
  calc a ++ (c :: s ++ [c]) ++ (u ++ (s ++ [c]) ++ b')
      = (a ++ (c :: s ++ [c]) ++ u) ++ (s ++ [c]) ++ b' := by simp
    _ = (a' ++ [c]) ++ (s ++ [c]) ++ b' := by rw [ha']
    _ = a' ++ (c :: s ++ [c]) ++ b' := by simp

/-- A separator that has its outer letter nowhere else overlaps itself in this letter only. -/
lemma runInto_of_append_eq {s a b a' b' : List α} (hs : c ∉ s) (hlt : a.length < a'.length)
    (h : a ++ (c :: s ++ [c]) ++ b = a' ++ (c :: s ++ [c]) ++ b') : RunInto c s a b a' b' := by
  have ha : a <+: a ++ (c :: s ++ [c]) ++ b := by
    rw [List.append_assoc]
    exact List.prefix_append _ _
  have ha' : a' <+: a ++ (c :: s ++ [c]) ++ b := by
    rw [h, List.append_assoc]
    exact List.prefix_append _ _
  obtain ⟨w, rfl⟩ := List.prefix_of_prefix_length_le ha ha' hlt.le
  have hw : w ≠ [] := by
    rintro rfl
    simp at hlt
  have hrest : (c :: s ++ [c]) ++ b = (w ++ [c]) ++ ((s ++ [c]) ++ b') := by
    simpa using h
  rcases List.append_eq_append_iff.mp hrest with ⟨u, hu, hb⟩ | ⟨u, hu, hb⟩
  · refine ⟨u, ?_, ?_⟩
    · rw [List.append_assoc, hu, ← List.append_assoc]
    · rw [hb, ← List.append_assoc]
  · rcases List.eq_nil_or_concat u with rfl | ⟨v, d, rfl⟩
    · rw [List.append_nil] at hu
      refine ⟨[], ?_, ?_⟩
      · rw [List.append_assoc, ← hu, List.append_nil]
      · rw [List.nil_append, hb, List.nil_append]
    · -- the letter would occur within the separator
      have hinner : c :: s = w ++ [c] ++ v := by
        rw [List.concat_eq_append, ← List.append_assoc] at hu
        exact (List.append_inj' hu rfl).1
      obtain ⟨d, w, rfl⟩ := List.exists_cons_of_ne_nil hw
      have hmem : c ∈ s := by
        rw [List.cons_append, List.cons_append, List.cons.injEq] at hinner
        simp [hinner.2]
      exact absurd hmem hs

/-- **Texts around a separator** are told apart unless they run into each other at it. -/
theorem append_eq_iff {s : List α} (hs : c ∉ s) (a b a' b' : List α) :
    a ++ (c :: s ++ [c]) ++ b = a' ++ (c :: s ++ [c]) ++ b' ↔
      (a = a' ∧ b = b') ∨ RunInto c s a b a' b' ∨ RunInto c s a' b' a b := by
  constructor
  · intro h
    rcases lt_trichotomy a.length a'.length with hlt | heq | hlt
    · exact .inr (.inl (runInto_of_append_eq hs hlt h))
    · simp only [List.append_assoc] at h
      obtain ⟨rfl, hrest⟩ := List.append_inj h heq
      exact .inl ⟨rfl, by simpa using hrest⟩
    · exact .inr (.inr (runInto_of_append_eq hs hlt h.symm))
  · rintro (⟨rfl, rfl⟩ | h | h)
    · rfl
    · exact append_eq_of_runInto h
    · exact (append_eq_of_runInto h).symm

end Separators

end Pureflow.Lib
