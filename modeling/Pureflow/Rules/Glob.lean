import Pureflow.Lib.Splits
import Pureflow.Wasm.Arena

/-!
What a glob pattern matches, said without its matcher: the value falls into pieces, one for each
character of the pattern.
-/

namespace Pureflow.Rules

open Pureflow.Lib Pureflow.Wasm

/-- The piece of a value that a character of a pattern takes. -/
def GlobTakes (c : Char) (piece : List Char) : Prop :=
  match c with
  | '*' => True
  | '?' => ∃ d, piece = [d]
  | c => piece = [c]

/-- The calls that a call of the matcher can make of itself. -/
inductive GlobCalls : List Char × List Char → List Char × List Char → Prop
  | starEnds {restP value : List Char} : GlobCalls (restP, value) ('*' :: restP, value)
  | starTakes {restP : List Char} {v : Char} {restV : List Char} :
    GlobCalls ('*' :: restP, restV) ('*' :: restP, v :: restV)
  | any {restP : List Char} {v : Char} {restV : List Char} :
    GlobCalls (restP, restV) ('?' :: restP, v :: restV)
  | same {c : Char} {restP restV : List Char} : GlobCalls (restP, restV) (c :: restP, c :: restV)

lemma globCalls_wellFounded : WellFounded GlobCalls := by
  refine Subrelation.wf (r := InvImage (· < ·) fun call => call.1.length + call.2.length) ?_
    (InvImage.wf _ wellFounded_lt)
  rintro call caller h
  cases h <;> simp only [InvImage, List.length_cons] <;> omega

section Stars

variable {p : List Char} {v : Char} {value rest : List Char}

lemma splits_star : Splits GlobTakes ('*' :: p) value ↔
    ∃ piece rest, value = piece ++ rest ∧ Splits GlobTakes p rest := by
  rw [splits_cons]
  constructor
  · rintro ⟨piece, rest, hvalue, -, hrest⟩
    exact ⟨piece, rest, hvalue, hrest⟩
  · rintro ⟨piece, rest, hvalue, hrest⟩
    exact ⟨piece, rest, hvalue, trivial, hrest⟩

lemma splits_star_cons : Splits GlobTakes ('*' :: p) (v :: rest) ↔
    Splits GlobTakes p (v :: rest) ∨ Splits GlobTakes ('*' :: p) rest := by
  simp only [splits_star]
  constructor
  · rintro ⟨_ | ⟨c, piece⟩, rest', hvalue, hrest⟩
    · rw [List.nil_append] at hvalue
      rw [hvalue]
      exact .inl hrest
    · rw [List.cons_append, List.cons.injEq] at hvalue
      exact .inr ⟨piece, rest', hvalue.2, hrest⟩
  · rintro (h | ⟨piece, rest', rfl, hrest⟩)
    · exact ⟨[], _, rfl, h⟩
    · exact ⟨v :: piece, rest', rfl, hrest⟩

lemma splits_any : Splits GlobTakes ('?' :: p) value ↔
    ∃ v rest, value = v :: rest ∧ Splits GlobTakes p rest := by
  rw [splits_cons]
  constructor
  · rintro ⟨piece, rest, rfl, ⟨v, rfl⟩, hrest⟩
    exact ⟨v, rest, rfl, hrest⟩
  · rintro ⟨v, rest, rfl, hrest⟩
    exact ⟨[v], rest, rfl, ⟨v, rfl⟩, hrest⟩

lemma splits_char {c : Char} (hstar : c ≠ '*') (hany : c ≠ '?') :
    Splits GlobTakes (c :: p) value ↔ ∃ rest, value = c :: rest ∧ Splits GlobTakes p rest := by
  have htakes (piece : List Char) : GlobTakes c piece ↔ piece = [c] := by
    unfold GlobTakes
    split
    · exact absurd rfl hstar
    · exact absurd rfl hany
    · exact Iff.rfl
  rw [splits_cons]
  constructor
  · rintro ⟨piece, rest, rfl, hpiece, hrest⟩
    rw [(htakes piece).mp hpiece]
    exact ⟨rest, rfl, hrest⟩
  · rintro ⟨rest, rfl, hrest⟩
    exact ⟨[c], rest, rfl, (htakes _).mpr rfl, hrest⟩

end Stars

lemma not_globTakes_nil {c : Char} (hstar : c ≠ '*') : ¬ GlobTakes c [] := by
  unfold GlobTakes
  split <;> simp_all

/-- The matcher decides whether the value falls into pieces. -/
lemma globMatchInner_iff (pattern value : List Char) :
    globMatchInner pattern value = true ↔ Splits GlobTakes pattern value := by
  fun_induction globMatchInner pattern value with
  | case1 => simp [splits_nil]
  | case2 restP value hends ih =>
    have hsplits := ih.mp hends
    exact iff_of_true rfl (splits_star.mpr ⟨[], value, rfl, hsplits⟩)
  | case3 restP hends ih =>
    refine iff_of_false (by simp) fun hsplits => ?_
    obtain ⟨piece, rest, hvalue, hrest⟩ := splits_star.mp hsplits
    obtain ⟨rfl, rfl⟩ := List.append_eq_nil_iff.mp hvalue.symm
    exact hends (ih.mpr hrest)
  | case4 restP v restV hends ih ih' =>
    rw [ih', splits_star_cons, ← ih, or_iff_right hends]
  | case5 restP v restV ih =>
    rw [ih, splits_any]
    simp
  | case6 restP v restV hstar hany ih =>
    rw [ih, splits_char (fun h => hstar h) (fun h => hany h)]
    simp
  | case7 p restP v restV hstar hany hne =>
    refine iff_of_false (by simp) fun hsplits => ?_
    obtain ⟨rest, hvalue, -⟩ := (splits_char (fun h => hstar h) (fun h => hany h)).mp hsplits
    exact hne (List.cons.inj hvalue).1.symm
  | case8 pattern value hnil hstar hany hchar =>
    refine iff_of_false (by simp) fun hsplits => ?_
    rcases pattern with _ | ⟨c, restP⟩
    · exact hnil rfl (splits_nil.mp hsplits)
    · rcases value with _ | ⟨v, restV⟩
      · have hne : c ≠ '*' := by
          rintro rfl
          exact hstar restP rfl
        obtain ⟨piece, rest, hvalue, hpiece, -⟩ := splits_cons.mp hsplits
        obtain ⟨rfl, rfl⟩ := List.append_eq_nil_iff.mp hvalue.symm
        exact not_globTakes_nil hne hpiece
      · exact hchar c restP v restV rfl rfl

/-- **Glob matching meets its specification**: the recursion ends, a value matches a pattern
exactly if it falls into pieces that the characters of the pattern take, and the guest's matcher
decides the same. -/
theorem globMatch_spec : WellFounded GlobCalls ∧ ∀ pattern value : String,
    (globMatch pattern value = true ↔ Splits GlobTakes pattern.toList value.toList) ∧
    Guest.globMatch pattern value = globMatch pattern value :=
  ⟨globCalls_wellFounded, fun pattern value =>
    ⟨globMatchInner_iff pattern.toList value.toList, globMatch_eq pattern value⟩⟩

end Pureflow.Rules
