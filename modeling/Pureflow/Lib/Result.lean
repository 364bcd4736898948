import Mathlib

/-!
Computations that may fail: what a success of a sequence says about its steps.
-/

universe u

namespace Pureflow.Lib.Result

variable {ε : Type*} {α β : Type u}

@[simp] lemma bind_eq_ok {x : Except ε α} {f : α → Except ε β} {b : β} :
    (x >>= f) = .ok b ↔ ∃ a, x = .ok a ∧ f a = .ok b := by
  cases x with
  | error e => simp [bind, Except.bind]
  | ok a => simp [bind, Except.bind]

lemma check_bind_eq_ok {x : Except ε PUnit} {f : PUnit → Except ε β} {b : β} :
    (x >>= f) = .ok b ↔ x = .ok ⟨⟩ ∧ f ⟨⟩ = .ok b := by
  rw [bind_eq_ok]
  exact ⟨fun ⟨⟨⟩, hx, hf⟩ => ⟨hx, hf⟩, fun ⟨hx, hf⟩ => ⟨⟨⟩, hx, hf⟩⟩

lemma bind_eq_error {x : Except ε α} {f : α → Except ε β} {e : ε} :
    (x >>= f) = .error e ↔ x = .error e ∨ ∃ a, x = .ok a ∧ f a = .error e := by
  cases x with
  | error e' => simp [bind, Except.bind]
  | ok a => simp [bind, Except.bind]

@[simp] lemma mapError_eq_ok {ε' : Type*} {x : Except ε α} {f : ε → ε'} {a : α} :
    x.mapError f = .ok a ↔ x = .ok a := by
  cases x with
  | error e => simp [Except.mapError]
  | ok b => simp [Except.mapError]

@[simp] lemma mapError_eq_error {ε' : Type*} {x : Except ε α} {f : ε → ε'} {e : ε'} :
    x.mapError f = .error e ↔ ∃ err, x = .error err ∧ f err = e := by
  cases x with
  | error err => simp [Except.mapError]
  | ok b => simp [Except.mapError]

@[simp] lemma map_eq_ok {x : Except ε α} {f : α → β} {b : β} :
    x.map f = .ok b ↔ ∃ a, x = .ok a ∧ f a = b := by
  cases x with
  | error e => simp [Except.map]
  | ok a => simp [Except.map]

lemma forM_eq_ok {ι : Type*} {check : ι → Except ε PUnit} {xs : List ι} :
    xs.forM check = .ok ⟨⟩ ↔ ∀ x ∈ xs, check x = .ok ⟨⟩ := by
  induction xs with
  | nil => simp [pure, Except.pure]
  | cons x xs ih =>
    have hcons : (x :: xs).forM check = (check x >>= fun _ => xs.forM check) := rfl
    rw [hcons, check_bind_eq_ok, List.forall_mem_cons, ih]

lemma exists_ok {x : Except ε α} (h : x.toBool = true) : ∃ a, x = .ok a := by
  cases x with
  | error e => simp [Except.toBool] at h
  | ok a => exact ⟨a, rfl⟩

lemma mapM_map_of_decodes {m : Type u → Type*} [Monad m] [LawfulMonad m] {α β : Type*}
    {γ : Type u} {encode : α → β} {decode : β → m γ} {view : α → γ}
    (h : ∀ a, decode (encode a) = pure (view a)) (xs : List α) :
    (xs.map encode).mapM decode = pure (xs.map view) := by
  induction xs with
  | nil => simp
  | cons x xs ih => simp only [List.map_cons, List.mapM_cons, h, ih, pure_bind]

lemma mapM_eq_some {α β : Type*} {decode : α → Option β} {xs : List α} {ys : List β} :
    xs.mapM decode = some ys ↔ List.Forall₂ (fun x y => decode x = some y) xs ys := by
  induction xs generalizing ys with
  | nil => simp [eq_comm]
  | cons x xs ih =>
    simp only [List.mapM_cons, Option.bind_eq_bind, Option.bind_eq_some_iff, ih, Option.pure_def,
      Option.some.injEq, List.forall₂_cons_left_iff]
    constructor
    · rintro ⟨y, hy, zs, hzs, rfl⟩
      exact ⟨y, zs, hy, hzs, rfl⟩
    · rintro ⟨y, zs, hy, hzs, rfl⟩
      exact ⟨y, hy, zs, hzs, rfl⟩

lemma allM_eq_some {α β : Type*} {f : α → Option Bool} {p : β → Bool} {xs : List α} {ys : List β}
    (h : List.Forall₂ (fun x y => f x = some (p y)) xs ys) : xs.allM f = some (ys.all p) := by
  induction h with
  | nil => rfl
  | @cons x y xs ys hx _ ih => cases hp : p y <;> simp [List.allM, hx, ih, hp]

lemma anyM_eq_some {α β : Type*} {f : α → Option Bool} {p : β → Bool} {xs : List α} {ys : List β}
    (h : List.Forall₂ (fun x y => f x = some (p y)) xs ys) : xs.anyM f = some (ys.any p) := by
  induction h with
  | nil => rfl
  | @cons x y xs ys hx _ ih => cases hp : p y <;> simp [List.anyM, hx, ih, hp]

lemma mapM_eq_ok {α : Type*} {f : α → Except ε β} {xs : List α} {ys : List β} :
    xs.mapM f = .ok ys ↔ List.Forall₂ (fun x y => f x = .ok y) xs ys := by
  induction xs generalizing ys with
  | nil => simp [pure, Except.pure, eq_comm]
  | cons x xs ih =>
    simp only [List.mapM_cons, bind_eq_ok, ih, pure, Except.pure, Except.ok.injEq,
      List.forall₂_cons_left_iff]
    constructor
    · rintro ⟨y, hy, zs, hzs, rfl⟩
      exact ⟨y, zs, hy, hzs, rfl⟩
    · rintro ⟨y, zs, hy, hzs, rfl⟩
      exact ⟨y, hy, zs, hzs, rfl⟩

lemma mapM_eq_error {α : Type*} {f : α → Except ε β} {xs : List α} {e : ε} :
    xs.mapM f = .error e ↔ ∃ (i : ℕ) (x : α), xs[i]? = some x ∧ f x = .error e ∧
      ∀ j < i, ∀ y, xs[j]? = some y → ∃ b, f y = .ok b := by
  induction xs with
  | nil => simp [pure, Except.pure]
  | cons x xs ih =>
    simp only [List.mapM_cons, bind_eq_error, ih, pure, Except.pure, reduceCtorEq, and_false,
      exists_false, or_false]
    constructor
    · rintro (hx | ⟨b, hb, i, y, hy, herr, hbefore⟩)
      · exact ⟨0, x, rfl, hx, by simp⟩
      · refine ⟨i + 1, y, hy, herr, fun j hj z hz => ?_⟩
        cases j with
        | zero =>
          obtain rfl : x = z := by simpa using hz
          exact ⟨b, hb⟩
        | succ j => exact hbefore j (by omega) z (by simpa using hz)
    · rintro ⟨i, y, hy, herr, hbefore⟩
      cases i with
      | zero =>
        obtain rfl : x = y := by simpa using hy
        exact .inl herr
      | succ i =>
        obtain ⟨b, hb⟩ := hbefore 0 (by omega) x rfl
        refine .inr ⟨b, hb, i, y, by simpa using hy, herr, fun j hj z hz => ?_⟩
        exact hbefore (j + 1) (by omega) z (by simpa using hz)

lemma mapM_zipIdx_eq_ok {α : Type*} {f : α × ℕ → Except ε β} {R : α → β → Prop}
    (hf : ∀ x i y, f (x, i) = .ok y ↔ R x y) {xs : List α} {ys : List β} :
    xs.zipIdx.mapM f = .ok ys ↔ List.Forall₂ R xs ys := by
  have hnumbered (n : ℕ) :
      List.Forall₂ (fun p y => f p = .ok y) (xs.zipIdx n) ys ↔ List.Forall₂ R xs ys := by
    induction xs generalizing n ys with
    | nil => simp
    | cons x xs ih =>
      simp only [List.zipIdx_cons, List.forall₂_cons_left_iff, ih]
      simp only [hf]
  rw [mapM_eq_ok, hnumbered]

lemma mapM_zipIdx_eq_error {α : Type*} {f : α × ℕ → Except ε β} {xs : List α} {e : ε} :
    xs.zipIdx.mapM f = .error e ↔ ∃ (i : ℕ) (x : α), xs[i]? = some x ∧ f (x, i) = .error e ∧
      ∀ j < i, ∀ y, xs[j]? = some y → ∃ b, f (y, j) = .ok b := by
  simp [mapM_eq_error, List.getElem?_zipIdx, Option.map_eq_some_iff]

lemma foldlM_eq_ok {σ : Type u} {α γ : Type*} {f : σ → α → Except ε σ} {R : α → γ → Prop}
    {g : σ → γ → σ} (hf : ∀ s x s', f s x = .ok s' ↔ ∃ y, R x y ∧ s' = g s y) {xs : List α}
    {s s' : σ} :
    xs.foldlM f s = .ok s' ↔ ∃ ys, List.Forall₂ R xs ys ∧ s' = ys.foldl g s := by
  induction xs generalizing s with
  | nil => simp [pure, Except.pure, eq_comm]
  | cons x xs ih =>
    simp only [List.foldlM_cons, bind_eq_ok, ih, hf]
    constructor
    · rintro ⟨_, ⟨y, hy, rfl⟩, ys, hys, rfl⟩
      exact ⟨y :: ys, .cons hy hys, rfl⟩
    · rintro ⟨_, _ | ⟨hy, hys⟩, rfl⟩
      exact ⟨_, ⟨_, hy, rfl⟩, _, hys, rfl⟩

lemma forall₂_comp {α β γ : Type*} {R : α → β → Prop} {S : β → γ → Prop} {xs : List α}
    {zs : List γ} : (∃ ys, List.Forall₂ R xs ys ∧ List.Forall₂ S ys zs) ↔
      List.Forall₂ (fun x z => ∃ y, R x y ∧ S y z) xs zs := by
  constructor
  · rintro ⟨ys, hxy, hyz⟩
    induction hxy generalizing zs with
    | nil =>
      cases hyz
      exact .nil
    | cons hab _ ih =>
      cases hyz with
      | cons hbc hrest => exact .cons ⟨_, hab, hbc⟩ (ih hrest)
  · intro h
    induction h with
    | nil => exact ⟨[], .nil, .nil⟩
    | cons hac _ ih =>
      obtain ⟨b, hab, hbc⟩ := hac
      obtain ⟨ys, hxy, hyz⟩ := ih
      exact ⟨b :: ys, .cons hab hxy, .cons hbc hyz⟩

lemma exists_forall₂ {α β : Type*} {R : α → β → Prop} {xs : List α} :
    (∃ ys, List.Forall₂ R xs ys) ↔ ∀ x ∈ xs, ∃ y, R x y := by
  induction xs with
  | nil => exact ⟨by simp, fun _ => ⟨[], .nil⟩⟩
  | cons x xs ih =>
    rw [List.forall_mem_cons, ← ih]
    constructor
    · rintro ⟨ys, hys⟩
      cases hys with
      | cons hx hrest => exact ⟨⟨_, hx⟩, ⟨_, hrest⟩⟩
    · rintro ⟨⟨y, hy⟩, ⟨ys, hys⟩⟩
      exact ⟨y :: ys, .cons hy hys⟩

lemma exists_mem_left {α β : Type*} {R : α → β → Prop} {xs : List α} {ys : List β} {y : β}
    (h : List.Forall₂ R xs ys) (hy : y ∈ ys) : ∃ x ∈ xs, R x y := by
  induction h with
  | nil => cases hy
  | cons hab hrest ih =>
    rcases List.mem_cons.mp hy with rfl | hy
    · exact ⟨_, List.mem_cons_self, hab⟩
    · obtain ⟨x, hx, hxy⟩ := ih hy
      exact ⟨x, List.mem_cons_of_mem _ hx, hxy⟩

lemma forall_mem_iff {α β : Type*} {R : α → β → Prop} {P : α → Prop} {Q : β → Prop}
    (hPQ : ∀ a b, R a b → (P a ↔ Q b)) {xs : List α} {ys : List β} (h : List.Forall₂ R xs ys) :
    (∀ x ∈ xs, P x) ↔ ∀ y ∈ ys, Q y := by
  induction h with
  | nil => simp
  | cons hab _ ih => rw [List.forall_mem_cons, List.forall_mem_cons, hPQ _ _ hab, ih]

lemma pairwise_iff {α β : Type*} {R : α → β → Prop} {P : α → α → Prop} {Q : β → β → Prop}
    (hPQ : ∀ a b a' b', R a b → R a' b' → (P a a' ↔ Q b b')) {xs : List α} {ys : List β}
    (h : List.Forall₂ R xs ys) : xs.Pairwise P ↔ ys.Pairwise Q := by
  induction h with
  | nil => simp
  | cons hab hrest ih =>
    rw [List.pairwise_cons, List.pairwise_cons, ih,
      forall_mem_iff (fun a b h => hPQ _ _ a b hab h) hrest]

lemma length_of_mapM {α β : Type*} {decode : α → Option β} {xs : List α} {ys : List β}
    (h : xs.mapM decode = some ys) : xs.length = ys.length := by
  induction xs generalizing ys with
  | nil => simp_all
  | cons x xs ih =>
    simp only [List.mapM_cons, Option.bind_eq_bind, Option.bind_eq_some_iff] at h
    obtain ⟨y, -, zs, hzs, h⟩ := h
    cases h
    simp [ih hzs]

lemma getD_map_false {α : Type*} (o : Option α) (p : α → Bool) :
    (o.map p).getD false = o.any p := by
  cases o <;> rfl

lemma getD_map_true {α : Type*} (o : Option α) (p : α → Bool) :
    (o.map p).getD true = o.all p := by
  cases o <;> rfl

section State

variable {ε σ α β : Type} {x : ExceptT ε (StateM σ) α} {f : α → ExceptT ε (StateM σ) β} {s s' : σ}

lemma run_bind_ok {a : α} (h : x s = (.ok a, s')) : (x >>= f) s = f a s' := by
  simp only [bind, ExceptT.bind, ExceptT.mk, StateT.bind, h]
  rfl

lemma run_bind_error {e : ε} (h : x s = (.error e, s')) : (x >>= f) s = (.error e, s') := by
  simp only [bind, ExceptT.bind, ExceptT.mk, StateT.bind, h]
  rfl

end State

end Pureflow.Lib.Result
