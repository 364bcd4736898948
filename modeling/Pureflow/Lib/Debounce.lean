import Mathlib

/-!
Debouncing: of readings that come with their times, one is let through unless it comes within an
interval of the last one that was.

What is let through is spaced by the interval, everything else comes within the interval of
something that was let through, and in a stretch of time there is room for a bounded number.
-/

namespace Pureflow.Lib

variable {α : Type}

/-- Whether a time is within the interval of the last one. -/
def withinInterval (interval : ℕ) (last : Option ℕ) (now : ℕ) : Bool :=
  last.any fun t => now - t < interval

/-- The readings that are let through after `last`. -/
def letThrough (interval : ℕ) : Option ℕ → List (α × ℕ) → List (α × ℕ)
  | _, [] => []
  | last, (a, now) :: rest =>
    if withinInterval interval last now then letThrough interval last rest
    else (a, now) :: letThrough interval (some now) rest

variable {interval : ℕ} {last : Option ℕ} {readings : List (α × ℕ)}

/-- The time of the last reading let through. -/
def lastThrough (interval : ℕ) (last : Option ℕ) (readings : List (α × ℕ)) : Option ℕ :=
  ((letThrough interval last readings).getLast?.map (·.2)).or last

lemma lastThrough_cons (a : α) (now : ℕ) :
    lastThrough interval last ((a, now) :: readings) =
      lastThrough interval (if withinInterval interval last now then last else some now)
        readings := by
  unfold lastThrough
  by_cases hin : withinInterval interval last now = true
  · rw [letThrough, if_pos hin, if_pos hin]
  · rw [letThrough, if_neg hin, if_neg hin, List.getLast?_cons]
    cases (letThrough interval (some now) readings).getLast? <;> rfl

lemma letThrough_append (a : α) (now : ℕ) :
    letThrough interval last (readings ++ [(a, now)]) =
      letThrough interval last readings ++
        if withinInterval interval (lastThrough interval last readings) now then [] else [(a, now)] := by
  induction readings generalizing last with
  | nil =>
    rw [List.nil_append, letThrough, letThrough, letThrough, letThrough]
    rfl
  | cons reading rest ih =>
    obtain ⟨b, t⟩ := reading
    rw [lastThrough_cons, List.cons_append, letThrough, letThrough]
    split
    · exact ih
    · rw [ih, List.cons_append]

lemma lastThrough_append (a : α) (now : ℕ) :
    lastThrough interval last (readings ++ [(a, now)]) =
      if withinInterval interval (lastThrough interval last readings) now then
        lastThrough interval last readings
      else some now := by
  conv_lhs => rw [lastThrough, letThrough_append]
  by_cases hin : withinInterval interval (lastThrough interval last readings) now = true
  · rw [if_pos hin, if_pos hin, List.append_nil, lastThrough]
  · rw [if_neg hin, if_neg hin, List.getLast?_append_of_ne_nil _ (List.cons_ne_nil _ _)]
    rfl

/-- How what is let through lies in what is read. -/
structure Paced (interval : ℕ) (readings through : List (α × ℕ)) : Prop where
  sublist : through.Sublist readings
  /-- Two readings let through are the interval apart. -/
  spaced : through.IsChain fun r r' => interval ≤ r'.2 - r.2
  /-- A reading that is not let through comes within the interval of the last one that was. -/
  covered : ∀ before r after, readings = before ++ r :: after → ∃ sent,
    sent <+: through ∧ sent.Sublist (before ++ [r]) ∧
      (sent.getLast? = some r ∨ ∃ r' ∈ sent.getLast?, r.2 - r'.2 < interval)

lemma isPrefix_letThrough (before after : List (α × ℕ)) :
    letThrough interval last before <+: letThrough interval last (before ++ after) := by
  induction before generalizing last with
  | nil => exact List.nil_prefix
  | cons reading rest ih =>
    obtain ⟨a, t⟩ := reading
    rw [List.cons_append, letThrough, letThrough]
    split
    · exact ih
    · exact List.cons_prefix_cons.mpr ⟨rfl, ih⟩

lemma letThrough_sublist : (letThrough interval last readings).Sublist readings := by
  induction readings generalizing last with
  | nil => exact List.Sublist.slnil
  | cons reading rest ih =>
    obtain ⟨a, t⟩ := reading
    rw [letThrough]
    split
    · exact ih.cons _
    · exact ih.cons_cons _

lemma letThrough_isChain : (letThrough interval last readings).IsChain
    (fun r r' => interval ≤ r'.2 - r.2) ∧
      ∀ t ∈ last, ∀ r ∈ (letThrough interval last readings).head?, interval ≤ r.2 - t := by
  induction readings generalizing last with
  | nil => exact ⟨.nil, nofun⟩
  | cons reading rest ih =>
    obtain ⟨a, now⟩ := reading
    rw [letThrough]
    split
    · exact ih
    · next hout =>
      obtain ⟨hchain, hhead⟩ := @ih (some now)
      refine ⟨List.isChain_cons.mpr ⟨fun r hr => hhead now rfl r hr, hchain⟩, ?_⟩
      rintro t rfl r hr
      obtain rfl := Option.some.inj hr
      simpa [withinInterval] using hout

/-- **Debouncing paces.** -/
theorem letThrough_paced (interval : ℕ) (readings : List (α × ℕ)) :
    Paced interval readings (letThrough interval none readings) where
  sublist := letThrough_sublist
  spaced := letThrough_isChain.1
  covered := by
    rintro before ⟨a, now⟩ after rfl
    refine ⟨letThrough interval none (before ++ [(a, now)]), ?_, letThrough_sublist, ?_⟩
    · have hprefix : letThrough interval none (before ++ [(a, now)]) <+:
          letThrough interval none (before ++ [(a, now)] ++ after) := isPrefix_letThrough _ _
      rwa [List.append_assoc] at hprefix
    rw [letThrough_append]
    split
    · next hin =>
      right
      rw [List.append_nil]
      unfold lastThrough at hin
      cases hlast : (letThrough interval none before).getLast? with
      | none =>
        rw [hlast] at hin
        cases hin
      | some r' =>
        rw [hlast] at hin
        exact ⟨r', rfl, by simpa [withinInterval] using hin⟩
    · left
      rw [List.getLast?_append_of_ne_nil _ (List.cons_ne_nil _ _)]
      rfl

lemma le_of_spaced {r r' : α × ℕ} {between : List (α × ℕ)}
    (h : (r :: between ++ [r']).IsChain fun r r' => interval ≤ r'.2 - r.2) (hpos : 0 < interval) :
    (between.length + 1) * interval + r.2 ≤ r'.2 := by
  induction between generalizing r with
  | nil =>
    have hnext := (List.isChain_cons.mp h).1 r' rfl
    rw [List.length_nil]
    omega
  | cons next rest ih =>
    obtain ⟨hnext, hrest⟩ := List.isChain_cons.mp h
    have hstep : interval ≤ next.2 - r.2 := hnext next rfl
    have hle := ih hrest
    rw [List.length_cons]
    have hsum : (rest.length + 1 + 1) * interval = (rest.length + 1) * interval + interval := by
      ring
    omega

/-- **A bounded rate**: from one reading let through to another one, the interval passes once for
each of them but the first. -/
theorem Paced.rate {through : List (α × ℕ)} (h : Paced interval readings through)
    (hpos : 0 < interval) {r r' : α × ℕ} {between : List (α × ℕ)}
    (hin : r :: between ++ [r'] <:+: through) :
    (between.length + 1) * interval + r.2 ≤ r'.2 :=
  le_of_spaced ( List.IsChain.infix h.spaced hin) hpos

end Pureflow.Lib
