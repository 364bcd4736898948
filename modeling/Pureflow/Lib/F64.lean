import Mathlib

/-!
Double-precision floats: the bit-exact model of the core library, and their decimal text.

The text of a finite double is its shortest decimal that reads back as the same double,
written without an exponent.
-/

namespace Pureflow.Lib

/-- IEEE 754 binary64, with one value for all NaNs. -/
abbrev F64 := Float.Model

namespace F64

open Float.Model

/-- The decimals at one position inside the rounding interval of a positive double `v`: from
`v - minus` to `v + plus`, its ends included when the mantissa is even. The closer of the two
neighbours is taken, the upper one in a tie. -/
def shortestAt (v minus plus : ℚ) (even : Bool) (k : ℤ) : Option ℕ :=
  let unit : ℚ := 10 ^ k
  let d := (v / unit).floor.toNat
  let r := v - d * unit
  let down := r < minus ∨ (even ∧ r = minus)
  let up := unit - r < plus ∨ (even ∧ unit - r = plus)
  if up ∧ (¬down ∨ unit ≤ 2 * r) then some (d + 1)
  else if down then some d
  else none

/-- The digits and the position of the shortest decimal of a positive double, from position
`k` downwards. -/
def shortest (v minus plus : ℚ) (even : Bool) : ℕ → ℤ → ℕ × ℤ
  | 0, k => (0, k)
  | fuel + 1, k =>
    match shortestAt v minus plus even k with
    | some digits => (digits, k)
    | none => shortest v minus plus even fuel (k - 1)

/-- The text of `digits · 10 ^ k`. -/
def positional (digits : ℕ) (k : ℤ) : String :=
  if 0 ≤ k then toString (digits * 10 ^ k.toNat)
  else
    let places := (-k).toNat
    let ds := (toString digits).toList
    let padded := List.replicate (places + 1 - ds.length) '0' ++ ds
    let whole := padded.length - places
    String.ofList (padded.take whole) ++ "." ++ String.ofList (padded.drop whole)

def signText : UnpackedFloat.Sign → String
  | .negative => "-"
  | .positive => ""

/-- The mantissa of the smallest double of each binade, whose lower neighbour is half as far
away as its upper one. -/
def leastMantissa : ℕ := 2 ^ 52

def display (x : F64) : String :=
  match x.unpack with
  | .notANumber => "NaN"
  | .infinity s => signText s ++ "inf"
  | .zero s => signText s ++ "0"
  | .finite s m e _ =>
    let ulp : ℚ := 2 ^ e
    let minus := if m = leastMantissa then ulp / 4 else ulp / 2
    -- every double lies below `10 ^ 309` and needs no digit beyond `10 ^ (-1080)`
    let (digits, k) := shortest (m * ulp) minus (ulp / 2) (m % 2 == 0) 1390 309
    signText s ++ positional digits k

lemma compare_eq_cases {a b : UnpackedFloat} (h : a.compare b = some .eq) :
    (∃ s t, a = .zero s ∧ b = .zero t) ∨ a = b := by
  cases a with
  | notANumber => cases h
  | infinity s =>
    cases b with
    | infinity t =>
      right
      cases s <;> cases t <;> first | rfl | cases h
    | _ => cases s <;> cases h
  | zero s =>
    cases b with
    | zero t => exact .inl ⟨s, t, rfl, rfl⟩
    | infinity t => cases t <;> cases h
    | notANumber => cases h
    | finite t m e hm => cases t <;> cases h
  | finite s m e hm =>
    right
    cases b with
    | finite t m' e' hm' =>
      have hsame (hcmp : ((compare e e').then (compare m m')) = .eq) : e = e' ∧ m = m' := by
        rw [Ordering.then_eq_eq] at hcmp
        exact ⟨Std.LawfulEqCmp.eq_of_compare hcmp.1, Std.LawfulEqCmp.eq_of_compare hcmp.2⟩
      cases s <;> cases t
      · obtain ⟨rfl, rfl⟩ := hsame (Ordering.swap_eq_eq.mp (Option.some.inj h))
        rfl
      · cases h
      · cases h
      · obtain ⟨rfl, rfl⟩ := hsame (Option.some.inj h)
        rfl
    | infinity t => cases t <;> cases h
    | notANumber => cases s <;> cases h
    | zero t => cases s <;> cases h

lemma beq_congr {x y : F64} (h : x.beq y = true) (z : F64) : z.beq x = z.beq y := by
  have heq : x.unpack.compare y.unpack = some .eq := by
    simpa [Float.Model.beq, UnpackedFloat.beq] using h
  change (z.unpack.compare x.unpack == some .eq) = (z.unpack.compare y.unpack == some .eq)
  rcases compare_eq_cases heq with ⟨s, t, hx, hy⟩ | hsame
  · rw [hx, hy]
    cases z.unpack with
    | infinity u => cases u <;> rfl
    | finite u m e hm => cases u <;> rfl
    | _ => rfl
  · rw [hsame]

end F64

end Pureflow.Lib
