import Mathlib.Data.Nat.Log
import Pureflow.Lib.Memory
import Pureflow.Lib.Runs

/-!
The heap of a guest: a bump allocator over a linear memory that the host grows.

Blocks are never taken back, so what a caller has been handed stays its own: no other block shares
a byte with it, a block of a new size starts with the bytes of the old one, and the bytes below
the heap are left alone.
-/

namespace Pureflow.Wasm

open Pureflow.Lib

namespace GuestHeap

def WASM_PAGE_SIZE : ℕ := 64 * 1024

/-- `usize::MAX` of a 32-bit guest. -/
def USIZE_MAX : ℕ := 2 ^ 32 - 1

lemma WASM_PAGE_SIZE_pos : 0 < WASM_PAGE_SIZE := by decide

def checkedAdd (a b : ℕ) : Option ℕ :=
  if a + b ≤ USIZE_MAX then some (a + b) else none

def checkedSub (a b : ℕ) : Option ℕ :=
  if b ≤ a then some (a - b) else none

def saturatingMul (a b : ℕ) : ℕ :=
  min (a * b) USIZE_MAX

def divCeil (a b : ℕ) : ℕ :=
  (a + (b - 1)) / b

def isPowerOfTwo (n : ℕ) : Bool :=
  n == 2 ^ n.log2

def checkedNextPowerOfTwo (n : ℕ) : Option ℕ :=
  if 2 ^ Nat.clog 2 n ≤ USIZE_MAX then some (2 ^ Nat.clog 2 n) else none

def alignUp (value align : ℕ) : Option ℕ :=
  (checkedSub align 1).bind fun mask =>
    (checkedAdd value mask).map fun value => value &&& (USIZE_MAX - (align - 1))

def normalizeAlign (align : ℕ) : Option ℕ :=
  let align := max align 1
  if isPowerOfTwo align then some align else checkedNextPowerOfTwo align

structure Layout where
  size : ℕ
  align : ℕ

end GuestHeap

open GuestHeap

/-- The `HEAP_NEXT` of the guest, and its linear memory. -/
structure GuestHeap where
  heapNext : ℕ
  pages : ℕ
  memory : Memory

namespace GuestHeap

/-- `memory.grow`: a memory of 32-bit addresses has at most `65536` pages, and the host may refuse
any growth. -/
def memoryGrow (granted : Bool) (additionalPages : ℕ) (h : GuestHeap) : Option GuestHeap :=
  if granted ∧ h.pages + additionalPages ≤ 65536 then
    some { h with pages := h.pages + additionalPages }
  else none

def growMemoryTo (granted : Bool) (requiredEnd : ℕ) (h : GuestHeap) : Bool × GuestHeap :=
  let currentSize := saturatingMul h.pages WASM_PAGE_SIZE
  if requiredEnd ≤ currentSize then (true, h)
  else
    match checkedSub requiredEnd currentSize with
    | none => (false, h)
    | some additionalBytes =>
      match h.memoryGrow granted (divCeil additionalBytes WASM_PAGE_SIZE) with
      | some h => (true, h)
      | none => (false, h)

/-- The first allocation finds the base of the heap. -/
def based (heapBase : ℕ) (h : GuestHeap) : GuestHeap :=
  if h.heapNext = 0 then { h with heapNext := heapBase } else h

/-- The answer is an address, `0` for the null pointer. -/
def alloc (heapBase : ℕ) (granted : Bool) (layout : Layout) (h : GuestHeap) : ℕ × GuestHeap :=
  match normalizeAlign layout.align with
  | none => (0, h)
  | some align =>
    if layout.size = 0 then (align, h)
    else
      let h := h.based heapBase
      match alignUp h.heapNext align with
      | none => (0, h)
      | some aligned =>
        match checkedAdd aligned layout.size with
        | none => (0, h)
        | some next =>
          match h.growMemoryTo granted next with
          | (false, h) => (0, h)
          | (true, h) => (aligned, { h with heapNext := next })

def dealloc (_ptr : ℕ) (_layout : Layout) (h : GuestHeap) : GuestHeap :=
  h

def realloc (heapBase : ℕ) (granted : Bool) (ptr : ℕ) (layout : Layout) (newSize : ℕ)
    (h : GuestHeap) : ℕ × GuestHeap :=
  if newSize = 0 then (layout.align, h)
  else
    let (newPtr, h) := h.alloc heapBase granted ⟨newSize, layout.align⟩
    if newPtr ≠ 0 then
      (newPtr, { h with memory := h.memory.copy ptr newPtr (min layout.size newSize) })
    else (newPtr, h)

def cabiRealloc (heapBase : ℕ) (granted : Bool) (oldPtr oldLen align newLen : ℕ) (h : GuestHeap) :
    ℕ × GuestHeap :=
  match normalizeAlign align with
  | none => (0, h)
  | some align =>
    if oldLen = 0 then
      if newLen = 0 then (align, h) else h.alloc heapBase granted ⟨newLen, align⟩
    else h.realloc heapBase granted oldPtr ⟨oldLen, align⟩ newLen

/-! ### Rounding -/

lemma land_mask {value k : ℕ} (hvalue : value ≤ USIZE_MAX) (hk : 2 ^ k ≤ USIZE_MAX + 1) :
    value &&& (USIZE_MAX - (2 ^ k - 1)) = value / 2 ^ k * 2 ^ k := by
  have hpos : 0 < 2 ^ k := Nat.two_pow_pos k
  have hmask : USIZE_MAX - (2 ^ k - 1) = 2 ^ 32 - (2 ^ k - 1 + 1) := by
    unfold USIZE_MAX
    omega
  rw [hmask, ← Nat.shiftRight_eq_div_pow, ← Nat.shiftLeft_eq]
  refine Nat.eq_of_testBit_eq fun i => ?_
  rw [Nat.testBit_and, Nat.testBit_two_pow_sub_succ (by unfold USIZE_MAX at hk; omega),
    Nat.testBit_two_pow_sub_one, Nat.testBit_shiftLeft, Nat.testBit_shiftRight]
  rcases Nat.lt_or_ge i k with hlow | hhigh
  · simp [hlow, Nat.not_le.mpr hlow]
  · rcases Nat.lt_or_ge i 32 with hin | hout
    · simp [hhigh, hin, Nat.not_lt.mpr hhigh]
    · have hzero : value.testBit i = false := by
        refine Nat.testBit_lt_two_pow (lt_of_lt_of_le ?_ (Nat.pow_le_pow_right (by decide) hout))
        unfold USIZE_MAX at hvalue
        omega
      simp [hhigh, hzero]

lemma normalizeAlign_spec {align align' : ℕ} (h : normalizeAlign align = some align') :
    ∃ k, align' = 2 ^ k ∧ align ≤ 2 ^ k ∧ 1 ≤ align' := by
  unfold normalizeAlign at h
  dsimp only at h
  split at h
  · next hpower =>
    obtain rfl := Option.some.inj h
    rw [isPowerOfTwo, beq_iff_eq] at hpower
    exact ⟨_, hpower, by rw [← hpower]; omega, by omega⟩
  · unfold checkedNextPowerOfTwo at h
    split at h
    · obtain rfl := Option.some.inj h
      have hle := Nat.le_pow_clog Nat.one_lt_two (max align 1)
      exact ⟨_, rfl, by omega, Nat.one_le_two_pow⟩
    · cases h

lemma normalizeAlign_normal {align align' : ℕ} (h : normalizeAlign align = some align') :
    normalizeAlign align' = some align' := by
  obtain ⟨k, rfl, -, hpos⟩ := normalizeAlign_spec h
  unfold normalizeAlign
  rw [max_eq_left hpos]
  dsimp only
  rw [if_pos]
  rw [isPowerOfTwo, Nat.log2_two_pow]
  exact beq_self_eq_true _

lemma alignUp_spec {value k aligned : ℕ} (h : alignUp value (2 ^ k) = some aligned) :
    value ≤ aligned ∧ 2 ^ k ∣ aligned ∧ aligned ≤ USIZE_MAX := by
  have hpos : 1 ≤ 2 ^ k := Nat.one_le_two_pow
  simp only [alignUp, checkedSub, if_pos hpos, Option.bind_some, checkedAdd] at h
  split at h
  · next hfits =>
    obtain rfl := Option.some.inj h
    have hk : 2 ^ k ≤ USIZE_MAX + 1 := by omega
    dsimp only
    rw [land_mask hfits hk]
    refine ⟨?_, Nat.dvd_mul_left _ _, le_trans (Nat.div_mul_le_self _ _) hfits⟩
    have hmod := Nat.div_add_mod' (value + (2 ^ k - 1)) (2 ^ k)
    have hlt := Nat.mod_lt (value + (2 ^ k - 1)) hpos
    omega
  · cases h

/-! ### What a call does -/

/-- What all calls leave as it is: the heap only moves up, and never below its base. -/
structure Kept (heapBase : ℕ) (h h' : GuestHeap) : Prop where
  heapNext : h.heapNext ≤ h'.heapNext
  pages : h.pages ≤ h'.pages
  based : h.heapNext = 0 ∨ heapBase ≤ h.heapNext → h'.heapNext = 0 ∨ heapBase ≤ h'.heapNext

lemma Kept.rfl {heapBase : ℕ} {h : GuestHeap} : Kept heapBase h h :=
  ⟨le_rfl, le_rfl, id⟩

/-- A block of `size` bytes at `ptr`, above all that was handed out before. -/
structure Fresh (heapBase : ℕ) (h : GuestHeap) (layout : Layout) (ptr : ℕ) (h' : GuestHeap) :
    Prop where
  above : h.heapNext ≤ ptr
  based : h.heapNext = 0 ∨ heapBase ≤ h.heapNext → heapBase ≤ ptr
  top : ptr + layout.size = h'.heapNext
  inside : ptr + layout.size ≤ h'.pages * WASM_PAGE_SIZE
  aligned : ∃ k, layout.align ≤ 2 ^ k ∧ 2 ^ k ∣ ptr

lemma le_divCeil_mul (a : ℕ) {b : ℕ} (hb : 0 < b) : a ≤ divCeil a b * b := by
  have hdiv := Nat.div_add_mod (a + (b - 1)) b
  have hmod := Nat.mod_lt (a + (b - 1)) hb
  rw [mul_comm] at hdiv
  unfold divCeil
  omega

lemma divCeil_le {a b n : ℕ} (hb : 0 < b) (h : a ≤ n * b) : divCeil a b ≤ n := by
  have hlt : a + (b - 1) < (n + 1) * b := by
    rw [Nat.succ_mul]
    omega
  exact Nat.lt_succ_iff.mp ((Nat.div_lt_iff_lt_mul hb).mpr hlt)

/-- Growing asks for the pages that are missing, where the end is not in the memory yet. -/
lemma growMemoryTo_eq {granted : Bool} {requiredEnd : ℕ} {h : GuestHeap}
    (hshort : ¬ requiredEnd ≤ saturatingMul h.pages WASM_PAGE_SIZE) :
    h.growMemoryTo granted requiredEnd =
      match h.memoryGrow granted
        (divCeil (requiredEnd - saturatingMul h.pages WASM_PAGE_SIZE) WASM_PAGE_SIZE) with
      | some h => (true, h)
      | none => (false, h) := by
  unfold growMemoryTo checkedSub
  rw [if_neg hshort, if_pos (Nat.le_of_not_le hshort)]

lemma growMemoryTo_spec {granted grown : Bool} {requiredEnd : ℕ} {h h' : GuestHeap}
    (hgrow : h.growMemoryTo granted requiredEnd = (grown, h')) :
    h'.heapNext = h.heapNext ∧ h'.memory = h.memory ∧ h.pages ≤ h'.pages ∧
      (grown = true → requiredEnd ≤ h'.pages * WASM_PAGE_SIZE) := by
  by_cases hfits : requiredEnd ≤ saturatingMul h.pages WASM_PAGE_SIZE
  · rw [growMemoryTo, if_pos hfits] at hgrow
    cases hgrow
    exact ⟨rfl, rfl, le_rfl, fun _ => le_trans hfits (Nat.min_le_left _ _)⟩
  · rw [growMemoryTo_eq hfits] at hgrow
    have hmissing := le_divCeil_mul
      (requiredEnd - saturatingMul h.pages WASM_PAGE_SIZE) WASM_PAGE_SIZE_pos
    have hhave : saturatingMul h.pages WASM_PAGE_SIZE ≤ h.pages * WASM_PAGE_SIZE :=
      Nat.min_le_left _ _
    generalize divCeil (requiredEnd - saturatingMul h.pages WASM_PAGE_SIZE) WASM_PAGE_SIZE =
      additional at hgrow hmissing
    unfold memoryGrow at hgrow
    by_cases hgranted : granted = true ∧ h.pages + additional ≤ 65536
    · rw [if_pos hgranted] at hgrow
      cases hgrow
      refine ⟨rfl, rfl, Nat.le_add_right _ _, fun _ => ?_⟩
      rw [Nat.add_mul]
      omega
    · rw [if_neg hgranted] at hgrow
      cases hgrow
      exact ⟨rfl, rfl, le_rfl, Bool.noConfusion⟩

lemma growMemoryTo_granted {requiredEnd : ℕ} (h : GuestHeap) (hreach : requiredEnd ≤ USIZE_MAX) :
    (h.growMemoryTo true requiredEnd).1 = true := by
  by_cases hfits : requiredEnd ≤ saturatingMul h.pages WASM_PAGE_SIZE
  · rw [growMemoryTo, if_pos hfits]
  · rw [growMemoryTo_eq hfits, memoryGrow, if_pos]
    have hmax : USIZE_MAX ≤ 65536 * WASM_PAGE_SIZE := by decide
    have hall : saturatingMul h.pages WASM_PAGE_SIZE = h.pages * WASM_PAGE_SIZE := by
      refine Nat.min_eq_left (Nat.le_of_not_le fun hmore => hfits ?_)
      rwa [saturatingMul, Nat.min_eq_right hmore]
    have hpages : h.pages ≤ 65536 := by
      refine Nat.le_of_mul_le_mul_right ?_ WASM_PAGE_SIZE_pos
      omega
    refine ⟨rfl, ?_⟩
    have hmissing : divCeil (requiredEnd - saturatingMul h.pages WASM_PAGE_SIZE)
        WASM_PAGE_SIZE ≤ 65536 - h.pages := by
      refine divCeil_le WASM_PAGE_SIZE_pos ?_
      rw [hall, Nat.sub_mul]
      omega
    omega

/-- Where a block would end. -/
def top (heapBase : ℕ) (layout : Layout) (h : GuestHeap) : Option ℕ :=
  (normalizeAlign layout.align).bind fun align =>
    (alignUp (h.based heapBase).heapNext align).bind fun aligned => checkedAdd aligned layout.size

lemma kept_based (heapBase : ℕ) (h : GuestHeap) : Kept heapBase h (h.based heapBase) := by
  unfold based
  split
  · next hzero => exact ⟨by rw [hzero]; exact Nat.zero_le _, le_rfl, fun _ => .inr le_rfl⟩
  · exact .rfl

lemma based_memory (heapBase : ℕ) (h : GuestHeap) : (h.based heapBase).memory = h.memory := by
  unfold based
  split <;> rfl

/-- **An allocation** hands out nothing, or a block above all others. -/
lemma alloc_spec (heapBase : ℕ) (h : GuestHeap) {ptr : ℕ} {granted : Bool} {layout : Layout}
    {h' : GuestHeap}
    (hcall : h.alloc heapBase granted layout = (ptr, h')) :
    h'.memory = h.memory ∧ Kept heapBase h h' ∧
      (ptr ≠ 0 → layout.size ≠ 0 → Fresh heapBase h layout ptr h') := by
  have hkept := kept_based heapBase h
  have hmemory := based_memory heapBase h
  unfold alloc at hcall
  cases halign : normalizeAlign layout.align with
  | none =>
    rw [halign] at hcall
    cases hcall
    exact ⟨rfl, .rfl, fun hnull => absurd rfl hnull⟩
  | some align =>
    obtain ⟨k, rfl, hle, -⟩ := normalizeAlign_spec halign
    rw [halign] at hcall
    dsimp only at hcall
    by_cases hsize : layout.size = 0
    · rw [if_pos hsize] at hcall
      cases hcall
      exact ⟨rfl, .rfl, fun _ hsized => absurd hsize hsized⟩
    rw [if_neg hsize] at hcall
    cases haligned : alignUp (h.based heapBase).heapNext (2 ^ k) with
    | none =>
      rw [haligned] at hcall
      cases hcall
      exact ⟨hmemory, hkept, fun hnull => absurd rfl hnull⟩
    | some aligned =>
      rw [haligned] at hcall
      dsimp only at hcall
      cases hnext : checkedAdd aligned layout.size with
      | none =>
        rw [hnext] at hcall
        cases hcall
        exact ⟨hmemory, hkept, fun hnull => absurd rfl hnull⟩
      | some next =>
        rw [hnext] at hcall
        dsimp only at hcall
        obtain ⟨hup, hdvd, -⟩ := alignUp_spec haligned
        have htop : aligned + layout.size = next := by
          unfold checkedAdd at hnext
          split at hnext
          · exact Option.some.inj hnext
          · cases hnext
        rcases hgrow : (h.based heapBase).growMemoryTo granted next with ⟨grown, h₁⟩
        obtain ⟨hheap, hsame, hpages, hroom⟩ := growMemoryTo_spec hgrow
        rw [hgrow] at hcall
        have hkept₁ : Kept heapBase h h₁ :=
          ⟨hheap ▸ hkept.heapNext, le_trans hkept.pages hpages, fun hb => hheap ▸ hkept.based hb⟩
        cases grown with
        | false =>
          cases hcall
          exact ⟨hsame.trans hmemory, hkept₁, fun hnull => absurd rfl hnull⟩
        | true =>
          cases hcall
          have habove : (h.based heapBase).heapNext ≤ next := by omega
          have hbased : h.heapNext = 0 ∨ heapBase ≤ h.heapNext →
              heapBase ≤ (h.based heapBase).heapNext := by
            unfold based
            split
            · exact fun _ => le_rfl
            · next hne => exact fun hb => hb.resolve_left hne
          refine ⟨hsame.trans hmemory, ⟨le_trans hkept.heapNext habove, hkept₁.pages, fun hb =>
            .inr (le_trans (hbased hb) habove)⟩, fun _ _ => ?_⟩
          exact ⟨le_trans hkept.heapNext hup, fun hb => le_trans (hbased hb) hup, htop,
            htop ▸ hroom rfl, k, hle, hdvd⟩

lemma alloc_served {heapBase end' : ℕ} {layout : Layout} {h : GuestHeap}
    (hbase : 0 < heapBase) (hsize : layout.size ≠ 0) (htop : h.top heapBase layout = some end') :
    (h.alloc heapBase true layout).1 ≠ 0 := by
  unfold top at htop
  obtain ⟨align, halign, htop⟩ := Option.bind_eq_some_iff.mp htop
  obtain ⟨aligned, haligned, hend⟩ := Option.bind_eq_some_iff.mp htop
  obtain ⟨k, rfl, -, -⟩ := normalizeAlign_spec halign
  have hreach : end' ≤ USIZE_MAX := by
    unfold checkedAdd at hend
    split at hend
    · exact Option.some.inj hend ▸ ‹_›
    · cases hend
  have hgranted := growMemoryTo_granted (h.based heapBase) hreach
  have hpos : 0 < (h.based heapBase).heapNext := by
    unfold based
    split
    · exact hbase
    · next hne => exact Nat.pos_of_ne_zero hne
  have hup := (alignUp_spec haligned).1
  rcases hgrow : (h.based heapBase).growMemoryTo true end' with ⟨grown, h₁⟩
  rw [hgrow] at hgranted
  dsimp only at hgranted
  subst hgranted
  unfold alloc
  rw [halign]
  dsimp only
  rw [if_neg hsize, haligned]
  dsimp only
  rw [hend]
  dsimp only
  rw [hgrow]
  dsimp only
  omega

lemma realloc_served {heapBase end' ptr newSize : ℕ} {layout : Layout} {h : GuestHeap}
    (hbase : 0 < heapBase) (hsize : newSize ≠ 0)
    (htop : h.top heapBase ⟨newSize, layout.align⟩ = some end') :
    (h.realloc heapBase true ptr layout newSize).1 ≠ 0 := by
  have hserved : (h.alloc heapBase true ⟨newSize, layout.align⟩).1 ≠ 0 :=
    alloc_served hbase hsize htop
  unfold realloc
  rw [if_neg hsize]
  rcases halloc : h.alloc heapBase true ⟨newSize, layout.align⟩ with ⟨newPtr, h₁⟩
  rw [halloc] at hserved
  dsimp only at hserved ⊢
  rw [if_pos hserved]
  exact hserved

lemma cabiRealloc_served {heapBase end' oldPtr oldLen align newLen : ℕ} {h : GuestHeap}
    (hbase : 0 < heapBase) (hsize : newLen ≠ 0) (htop : h.top heapBase ⟨newLen, align⟩ = some end') :
    (h.cabiRealloc heapBase true oldPtr oldLen align newLen).1 ≠ 0 := by
  obtain ⟨align', halign, hrest⟩ := Option.bind_eq_some_iff.mp htop
  have htop' : h.top heapBase ⟨newLen, align'⟩ = some end' := by
    unfold top
    rw [normalizeAlign_normal halign]
    exact hrest
  unfold cabiRealloc
  rw [halign]
  dsimp only
  by_cases hold : oldLen = 0
  · rw [if_pos hold, if_neg hsize]
    exact alloc_served hbase hsize htop'
  · rw [if_neg hold]
    exact realloc_served hbase hsize htop'

/-- **A reallocation** hands out nothing, or a block above all others that starts with the bytes
of the old one. -/
lemma realloc_spec (heapBase : ℕ) (h : GuestHeap) {ptr ptr' newSize : ℕ} {granted : Bool}
    {layout : Layout} {h' : GuestHeap}
    (hcall : h.realloc heapBase granted ptr layout newSize = (ptr', h')) :
    Kept heapBase h h' ∧ (ptr' = 0 ∨ newSize = 0 → h'.memory = h.memory) ∧
      (ptr' ≠ 0 → newSize ≠ 0 → Fresh heapBase h ⟨newSize, layout.align⟩ ptr' h' ∧
        h'.memory = h.memory.copy ptr ptr' (min layout.size newSize)) := by
  unfold realloc at hcall
  by_cases hsize : newSize = 0
  · rw [if_pos hsize] at hcall
    cases hcall
    exact ⟨.rfl, fun _ => rfl, fun _ hsized => absurd hsize hsized⟩
  rw [if_neg hsize] at hcall
  rcases halloc : h.alloc heapBase granted ⟨newSize, layout.align⟩ with ⟨newPtr, h₁⟩
  obtain ⟨hmemory, hkept, hfresh⟩ := alloc_spec heapBase h halloc
  rw [halloc] at hcall
  dsimp only at hcall
  by_cases hnull : newPtr = 0
  · rw [if_neg (not_not.mpr hnull)] at hcall
    cases hcall
    exact ⟨hkept, fun _ => hmemory, fun hne => absurd hnull hne⟩
  · rw [if_pos hnull] at hcall
    cases hcall
    refine ⟨⟨hkept.heapNext, hkept.pages, hkept.based⟩, ?_, fun _ _ => ?_⟩
    · rintro (hzero | hzero)
      · exact absurd hzero hnull
      · exact absurd hzero hsize
    · obtain ⟨habove, hbased, htop, hinside, haligned⟩ := hfresh hnull hsize
      exact ⟨⟨habove, hbased, htop, hinside, haligned⟩, by rw [hmemory]⟩

lemma cabiRealloc_new_spec (heapBase : ℕ) (h : GuestHeap) {ptr align newLen : ℕ} {granted : Bool}
    {h' : GuestHeap}
    (hcall : h.cabiRealloc heapBase granted 0 0 align newLen = (ptr, h')) :
    h'.memory = h.memory ∧ Kept heapBase h h' ∧
      (ptr ≠ 0 → newLen ≠ 0 → Fresh heapBase h ⟨newLen, align⟩ ptr h') := by
  unfold cabiRealloc at hcall
  cases halign : normalizeAlign align with
  | none =>
    rw [halign] at hcall
    cases hcall
    exact ⟨rfl, .rfl, fun hnull => absurd rfl hnull⟩
  | some align' =>
    obtain ⟨k, rfl, hle, -⟩ := normalizeAlign_spec halign
    rw [halign] at hcall
    dsimp only at hcall
    rw [if_pos rfl] at hcall
    split at hcall
    · next hzero =>
      cases hcall
      exact ⟨rfl, .rfl, fun _ hne => absurd hzero hne⟩
    · obtain ⟨hmemory, hkept, hfresh⟩ := alloc_spec heapBase h hcall
      refine ⟨hmemory, hkept, fun hnull hne => ?_⟩
      obtain ⟨habove, hbased, htop, hinside, k', hle', hdvd⟩ := hfresh hnull hne
      exact ⟨habove, hbased, htop, hinside, k', le_trans hle hle', hdvd⟩

lemma cabiRealloc_spec (heapBase : ℕ) (h : GuestHeap) {oldPtr oldLen ptr align newLen : ℕ}
    {granted : Bool} {h' : GuestHeap} (hold : oldLen ≠ 0)
    (hcall : h.cabiRealloc heapBase granted oldPtr oldLen align newLen = (ptr, h')) :
    Kept heapBase h h' ∧ (ptr = 0 ∨ newLen = 0 → h'.memory = h.memory) ∧
      (ptr ≠ 0 → newLen ≠ 0 → Fresh heapBase h ⟨newLen, align⟩ ptr h' ∧
        h'.memory = h.memory.copy oldPtr ptr (min oldLen newLen)) := by
  unfold cabiRealloc at hcall
  cases halign : normalizeAlign align with
  | none =>
    rw [halign] at hcall
    cases hcall
    exact ⟨.rfl, fun _ => rfl, fun hnull => absurd rfl hnull⟩
  | some align' =>
    obtain ⟨k, rfl, hle, -⟩ := normalizeAlign_spec halign
    rw [halign] at hcall
    dsimp only at hcall
    rw [if_neg hold] at hcall
    obtain ⟨hkept, hmemory, hfresh⟩ := realloc_spec _ _ hcall
    refine ⟨hkept, hmemory, fun hnull hne => ?_⟩
    obtain ⟨⟨habove, hbased, htop, hinside, k', hle', hdvd⟩, hcopied⟩ := hfresh hnull hne
    exact ⟨⟨habove, hbased, htop, hinside, k', le_trans hle hle', hdvd⟩, hcopied⟩

/-! ### Runs -/

structure Block extends Region where
  align : ℕ
deriving Repr, DecidableEq

/-- The heap, and the blocks that its callers have been handed so far, the ones given back too. -/
structure Machine where
  heap : GuestHeap
  handed : List Block

/-- A call of the guest or of its host on the heap, or a store of the guest into a block that it
has been handed or into what lies below the heap. -/
inductive Call
  | alloc (granted : Bool) (layout : Layout)
  | dealloc (i : ℕ)
  | realloc (granted : Bool) (i newSize : ℕ)
  | cabiRealloc (granted : Bool) (old : Option ℕ) (align newLen : ℕ)
  | store (i offset : ℕ) (bytes : List UInt8)
  | storeBelow (ptr : ℕ) (bytes : List UInt8)

namespace Machine

/-- An answer other than the null pointer is a block, where it is one of at least a byte. -/
def handOut (s : Machine) (answer : ℕ × GuestHeap) (layout : Layout) : Machine where
  heap := answer.2
  handed :=
    if answer.1 = 0 ∨ layout.size = 0 then s.handed
    else s.handed ++ [⟨⟨answer.1, layout.size⟩, layout.align⟩]

/-- `none` where the caller breaks the rules: it names a block that it has not been handed, or
stores outside of the one it names. -/
def step (heapBase : ℕ) (s : Machine) : Call → Option Machine
  | .alloc granted layout => some (s.handOut (s.heap.alloc heapBase granted layout) layout)
  | .dealloc i => s.handed[i]?.map fun block =>
      { s with heap := s.heap.dealloc block.ptr ⟨block.size, block.align⟩ }
  | .realloc granted i newSize => s.handed[i]?.map fun block =>
      s.handOut (s.heap.realloc heapBase granted block.ptr ⟨block.size, block.align⟩ newSize)
        ⟨newSize, block.align⟩
  | .cabiRealloc granted none align newLen =>
      some (s.handOut (s.heap.cabiRealloc heapBase granted 0 0 align newLen) ⟨newLen, align⟩)
  | .cabiRealloc granted (some i) align newLen => s.handed[i]?.map fun block =>
      s.handOut (s.heap.cabiRealloc heapBase granted block.ptr block.size align newLen)
        ⟨newLen, align⟩
  | .store i offset bytes => s.handed[i]?.bind fun block =>
      if offset + bytes.length ≤ block.size then
        some { s with heap.memory := s.heap.memory.write (block.ptr + offset) bytes }
      else none
  | .storeBelow ptr bytes =>
      if ptr + bytes.length ≤ heapBase then
        some { s with heap.memory := s.heap.memory.write ptr bytes }
      else none

def start (pages : ℕ) (memory : Memory) : Machine :=
  ⟨⟨0, pages, memory⟩, []⟩

def regions (s : Machine) : List Region :=
  s.handed.map Block.toRegion

/-- The bytes of the blocks, in the order they were handed out. -/
def contents (s : Machine) : List (List UInt8) :=
  s.regions.map (Region.bytes s.heap.memory)

/-- The bytes below the heap. -/
def below (heapBase : ℕ) (s : Machine) : List UInt8 :=
  s.heap.memory.read 0 heapBase

end Machine

/-- A block of at least a byte, above the base, below all that is still free, in the memory. -/
structure Block.Fits (heapBase : ℕ) (h : GuestHeap) (block : Block) : Prop where
  sized : 0 < block.size
  based : heapBase ≤ block.ptr
  taken : block.ptr + block.size ≤ h.heapNext
  inside : block.ptr + block.size ≤ h.pages * WASM_PAGE_SIZE
  aligned : ∃ k, block.align ≤ 2 ^ k ∧ 2 ^ k ∣ block.ptr

lemma Block.Fits.kept {heapBase : ℕ} {h h' : GuestHeap} {block : Block}
    (hfits : block.Fits heapBase h) (hkept : Kept heapBase h h') : block.Fits heapBase h' :=
  ⟨hfits.sized, hfits.based, le_trans hfits.taken hkept.heapNext,
    le_trans hfits.inside (Nat.mul_le_mul_right _ hkept.pages), hfits.aligned⟩

structure Machine.LaidOut (heapBase : ℕ) (s : Machine) : Prop where
  based : s.heap.heapNext = 0 ∨ heapBase ≤ s.heap.heapNext
  apart : s.regions.Pairwise Region.Apart
  fits : ∀ block ∈ s.handed, block.Fits heapBase s.heap

/-- What a call may make of the contents of all blocks: they know nothing of each other, nor of
addresses. -/
def Call.Changes : Call → List (List UInt8) → List (List UInt8) → Prop
  | .alloc _ layout, blocks, blocks' => blocks' = blocks ∨
      ∃ bytes, bytes.length = layout.size ∧ blocks' = blocks ++ [bytes]
  | .cabiRealloc _ none _ newLen, blocks, blocks' => blocks' = blocks ∨
      ∃ bytes, bytes.length = newLen ∧ blocks' = blocks ++ [bytes]
  | .realloc _ i size, blocks, blocks' | .cabiRealloc _ (some i) _ size, blocks, blocks' =>
      blocks' = blocks ∨ ∃ old rest, blocks[i]? = some old ∧
        (old.take size ++ rest).length = size ∧ blocks' = blocks ++ [old.take size ++ rest]
  | .store i offset bytes, blocks, blocks' => ∃ old, blocks[i]? = some old ∧
      blocks' = blocks.set i (Memory.splice old offset bytes)
  | .dealloc _, blocks, blocks' | .storeBelow _ _, blocks, blocks' => blocks' = blocks

/-- The block that a call asks for, where the host grants the memory for it. -/
def Call.asks (s : Machine) : Call → Option Layout
  | .alloc true layout => some layout
  | .realloc true i newSize => s.handed[i]?.map fun block => ⟨newSize, block.align⟩
  | .cabiRealloc true none align newLen => some ⟨newLen, align⟩
  | .cabiRealloc true (some i) align newLen => s.handed[i]?.map fun _ => ⟨newLen, align⟩
  | _ => none

def Call.onBelow : Call → List UInt8 → List UInt8
  | .storeBelow ptr bytes, old => Memory.splice old ptr bytes
  | _, old => old

namespace Machine

variable {heapBase : ℕ} {s s' : Machine} {layout : Layout} {ptr : ℕ} {h' : GuestHeap}

/-- A step lemma for all calls that ask for a block. -/
lemma LaidOut.handOut (hs : s.LaidOut heapBase) (hkept : Kept heapBase s.heap h')
    (hfresh : ptr ≠ 0 → layout.size ≠ 0 → Fresh heapBase s.heap layout ptr h') :
    (s.handOut (ptr, h') layout).LaidOut heapBase := by
  unfold Machine.handOut
  split
  · exact ⟨hkept.based hs.based, hs.apart, fun block hblock =>
      (hs.fits block hblock).kept hkept⟩
  · next hgiven =>
    obtain ⟨hnull, hsize⟩ := not_or.mp hgiven
    obtain ⟨habove, hbased, htop, hinside, haligned⟩ := hfresh hnull hsize
    refine ⟨hkept.based hs.based, ?_, fun block hblock => ?_⟩
    · unfold regions
      dsimp only
      rw [List.map_append, List.pairwise_append]
      refine ⟨hs.apart, List.pairwise_singleton _ _, fun r hr r' hr' => ?_⟩
      obtain ⟨block, hblock, rfl⟩ := List.mem_map.mp hr
      obtain rfl := List.mem_singleton.mp hr'
      exact .inl (le_trans (hs.fits block hblock).taken habove)
    · rcases List.mem_append.mp hblock with hold | hnew
      · exact (hs.fits block hold).kept hkept
      · obtain rfl := List.mem_singleton.mp hnew
        exact ⟨Nat.pos_of_ne_zero hsize, hbased hs.based, htop.le, hinside, haligned⟩

lemma LaidOut.stored (hs : s.LaidOut heapBase) (memory : Memory) :
    ({ s with heap.memory := memory } : Machine).LaidOut heapBase :=
  ⟨hs.based, hs.apart, fun block hblock =>
    let hfits := hs.fits block hblock
    ⟨hfits.sized, hfits.based, hfits.taken, hfits.inside, hfits.aligned⟩⟩

/-- **A step** keeps the blocks apart, in the memory and aligned. -/
lemma LaidOut.step {call : Call} (hs : s.LaidOut heapBase)
    (hstep : step heapBase s call = some s') : s'.LaidOut heapBase := by
  cases call with
  | alloc granted layout =>
    obtain rfl := Option.some.inj hstep
    obtain ⟨-, hkept, hfresh⟩ := alloc_spec heapBase s.heap rfl
    exact hs.handOut hkept hfresh
  | dealloc i =>
    obtain ⟨block, -, rfl⟩ := Option.map_eq_some_iff.mp hstep
    exact hs
  | realloc granted i newSize =>
    obtain ⟨block, -, rfl⟩ := Option.map_eq_some_iff.mp hstep
    obtain ⟨hkept, -, hfresh⟩ := realloc_spec heapBase s.heap rfl
    exact hs.handOut hkept fun hnull hsize => (hfresh hnull hsize).1
  | cabiRealloc granted old align newLen =>
    cases old with
    | none =>
      obtain rfl := Option.some.inj hstep
      obtain ⟨-, hkept, hfresh⟩ := cabiRealloc_new_spec heapBase s.heap rfl
      exact hs.handOut hkept hfresh
    | some i =>
      obtain ⟨block, hi, rfl⟩ := Option.map_eq_some_iff.mp hstep
      have hsized := (hs.fits block (List.mem_of_getElem? hi)).sized
      obtain ⟨hkept, -, hfresh⟩ := cabiRealloc_spec heapBase s.heap
        hsized.ne' rfl
      exact hs.handOut hkept fun hnull hsize => (hfresh hnull hsize).1
  | store i offset bytes =>
    obtain ⟨block, -, hstep⟩ := Option.bind_eq_some_iff.mp hstep
    split at hstep
    · obtain rfl := Option.some.inj hstep
      exact hs.stored _
    · cases hstep
  | storeBelow ptr bytes =>
    rw [Machine.step] at hstep
    split at hstep
    · obtain rfl := Option.some.inj hstep
      exact hs.stored _
    · cases hstep

lemma contents_handOut (hmemory : h'.memory = s.heap.memory) :
    (s.handOut (ptr, h') layout).contents = s.contents ∨
      ∃ bytes, bytes.length = layout.size ∧
        (s.handOut (ptr, h') layout).contents = s.contents ++ [bytes] := by
  unfold handOut contents regions
  dsimp only
  rw [hmemory]
  split
  · exact .inl rfl
  · refine .inr ⟨_, ?_, by rw [List.map_append, List.map_append]; rfl⟩
    exact Memory.length_read

/-- **A resized block** starts with the bytes of the old one, and all other blocks have theirs. -/
lemma contents_resized (hs : s.LaidOut heapBase) {block : Block} (hkept : Kept heapBase s.heap h')
    (hnot : ptr = 0 ∨ layout.size = 0 → h'.memory = s.heap.memory)
    (hfresh : ptr ≠ 0 → layout.size ≠ 0 → Fresh heapBase s.heap layout ptr h' ∧
      h'.memory = s.heap.memory.copy block.ptr ptr (min block.size layout.size)) :
    (s.handOut (ptr, h') layout).contents = s.contents ∨
      ∃ rest, ((block.bytes s.heap.memory).take layout.size ++ rest).length = layout.size ∧
        (s.handOut (ptr, h') layout).contents =
          s.contents ++ [(block.bytes s.heap.memory).take layout.size ++ rest] := by
  have hlaid := hs.handOut hkept fun hnull hsize => (hfresh hnull hsize).1
  by_cases hgiven : ptr = 0 ∨ layout.size = 0
  · left
    unfold handOut contents regions
    dsimp only
    rw [if_pos hgiven, hnot hgiven]
  obtain ⟨hnull, hsize⟩ := not_or.mp hgiven
  obtain ⟨-, hcopied⟩ := hfresh hnull hsize
  -- the bytes that are copied are those that the old block starts with
  have hdata : s.heap.memory.read block.ptr (min block.size layout.size) =
      (block.bytes s.heap.memory).take layout.size := by
    unfold Region.bytes
    rw [Memory.read_take, Nat.min_comm]
  have hregions : (s.handOut (ptr, h') layout).regions = s.regions ++ [⟨ptr, layout.size⟩] := by
    unfold handOut regions
    dsimp only
    rw [if_neg hgiven, List.map_append, List.map_singleton]
  have hapart := hlaid.apart
  rw [hregions] at hapart
  have hlength : ((block.bytes s.heap.memory).take layout.size).length ≤ layout.size :=
    List.length_take_le _ _
  have hwritten := Region.map_bytes_append_write (m := s.heap.memory) hapart hlength
  have hcontents : (s.handOut (ptr, h') layout).contents =
      (s.regions ++ [Region.mk ptr layout.size]).map (Region.bytes (s.heap.memory.write ptr
        ((block.bytes s.heap.memory).take layout.size))) := by
    unfold contents
    rw [hregions, ← hdata]
    exact congrArg (fun memory => List.map (Region.bytes memory) _) hcopied
  refine .inr ⟨_, ?_, hcontents.trans hwritten⟩
  · rw [List.length_append, List.length_drop]
    change _ + ((s.heap.memory.read ptr layout.size).length - _) = _
    rw [Memory.length_read]
    omega

/-- **A step** changes the contents of the blocks as its call says. -/
lemma step_changes {call : Call} (hs : s.LaidOut heapBase)
    (hstep : step heapBase s call = some s') : call.Changes s.contents s'.contents := by
  have hget {i : ℕ} {block : Block} (hi : s.handed[i]? = some block) :
      s.contents[i]? = some (block.bytes s.heap.memory) := by
    rw [contents, regions, List.getElem?_map, List.getElem?_map, hi]
    rfl
  cases call with
  | alloc granted layout =>
    obtain rfl := Option.some.inj hstep
    exact contents_handOut (alloc_spec heapBase s.heap rfl).1
  | dealloc i =>
    obtain ⟨block, -, rfl⟩ := Option.map_eq_some_iff.mp hstep
    exact Eq.refl s.contents
  | realloc granted i newSize =>
    obtain ⟨block, hi, rfl⟩ := Option.map_eq_some_iff.mp hstep
    rcases hcall : s.heap.realloc heapBase granted block.ptr ⟨block.size, block.align⟩ newSize
      with ⟨ptr, h'⟩
    obtain ⟨hkept, hnot, hfresh⟩ := realloc_spec _ _ hcall
    refine (contents_resized hs hkept hnot hfresh).imp_right ?_
    rintro ⟨rest, hlength, hcontents⟩
    exact ⟨_, rest, hget hi, hlength, hcontents⟩
  | cabiRealloc granted old align newLen =>
    cases old with
    | none =>
      obtain rfl := Option.some.inj hstep
      exact contents_handOut (cabiRealloc_new_spec heapBase s.heap rfl).1
    | some i =>
      obtain ⟨block, hi, rfl⟩ := Option.map_eq_some_iff.mp hstep
      have hmem := List.mem_of_getElem? hi
      rcases hcall : s.heap.cabiRealloc heapBase granted block.ptr block.size align newLen
        with ⟨ptr, h'⟩
      obtain ⟨hkept, hnot, hfresh⟩ := cabiRealloc_spec _ _ (hs.fits block hmem).sized.ne' hcall
      refine (contents_resized hs hkept hnot hfresh).imp_right ?_
      rintro ⟨rest, hlength, hcontents⟩
      exact ⟨_, rest, hget hi, hlength, hcontents⟩
  | store i offset bytes =>
    obtain ⟨block, hi, hstep⟩ := Option.bind_eq_some_iff.mp hstep
    split at hstep
    · next hfits =>
      obtain rfl := Option.some.inj hstep
      have hregion : s.regions[i]? = some block.toRegion := by
        rw [regions, List.getElem?_map, hi, Option.map_some]
      exact ⟨_, hget hi, Region.map_bytes_write hs.apart hregion hfits⟩
    · cases hstep
  | storeBelow ptr bytes =>
    rw [step] at hstep
    split at hstep
    · next hbelow =>
      obtain rfl := Option.some.inj hstep
      refine Region.map_bytes_congr fun r hr a ha _ => Memory.write_outside (.inr ?_)
      obtain ⟨block, hblock, rfl⟩ := List.mem_map.mp hr
      exact le_trans hbelow (le_trans (hs.fits block hblock).based ha)
    · cases hstep

/-- What a copy into a new block leaves of the bytes below the heap. -/
lemma below_copied {m : Memory} {src n : ℕ} (h : heapBase ≤ ptr) :
    (m.copy src ptr n).read 0 heapBase = m.read 0 heapBase :=
  Memory.read_congr fun a _ ha => Memory.write_outside (.inl (by omega))

lemma below_resized {src n : ℕ} (hs : s.LaidOut heapBase)
    (hnot : ptr = 0 ∨ layout.size = 0 → h'.memory = s.heap.memory)
    (hfresh : ptr ≠ 0 → layout.size ≠ 0 → Fresh heapBase s.heap layout ptr h' ∧
      h'.memory = s.heap.memory.copy src ptr n) :
    (s.handOut (ptr, h') layout).below heapBase = s.below heapBase := by
  unfold below handOut
  dsimp only
  by_cases hgiven : ptr = 0 ∨ layout.size = 0
  · rw [hnot hgiven]
  · obtain ⟨hnull, hsize⟩ := not_or.mp hgiven
    obtain ⟨hnew, hcopied⟩ := hfresh hnull hsize
    rw [hcopied, below_copied (hnew.based hs.based)]

/-- **A step** leaves the bytes below the heap, stores into them apart. -/
lemma step_below {call : Call} (hs : s.LaidOut heapBase)
    (hstep : step heapBase s call = some s') :
    s'.below heapBase = call.onBelow (s.below heapBase) := by
  cases call with
  | alloc granted layout =>
    obtain rfl := Option.some.inj hstep
    exact congrArg (fun memory => Memory.read memory 0 heapBase)
      (alloc_spec heapBase s.heap rfl).1
  | dealloc i =>
    obtain ⟨block, -, rfl⟩ := Option.map_eq_some_iff.mp hstep
    rfl
  | realloc granted i newSize =>
    obtain ⟨block, hi, rfl⟩ := Option.map_eq_some_iff.mp hstep
    rcases hcall : s.heap.realloc heapBase granted block.ptr ⟨block.size, block.align⟩ newSize
      with ⟨ptr, h'⟩
    obtain ⟨-, hnot, hfresh⟩ := realloc_spec _ _ hcall
    exact below_resized hs hnot hfresh
  | cabiRealloc granted old align newLen =>
    cases old with
    | none =>
      obtain rfl := Option.some.inj hstep
      exact congrArg (fun memory => Memory.read memory 0 heapBase)
        (cabiRealloc_new_spec heapBase s.heap rfl).1
    | some i =>
      obtain ⟨block, hi, rfl⟩ := Option.map_eq_some_iff.mp hstep
      rcases hcall : s.heap.cabiRealloc heapBase granted block.ptr block.size align newLen
        with ⟨ptr, h'⟩
      obtain ⟨-, hnot, hfresh⟩ :=
        cabiRealloc_spec _ _ (hs.fits block (List.mem_of_getElem? hi)).sized.ne' hcall
      exact below_resized hs hnot hfresh
  | store i offset bytes =>
    obtain ⟨block, hi, hstep⟩ := Option.bind_eq_some_iff.mp hstep
    split at hstep
    · obtain rfl := Option.some.inj hstep
      have hbased := (hs.fits block (List.mem_of_getElem? hi)).based
      exact Memory.read_congr fun a _ ha => Memory.write_outside (.inl (by omega))
    · cases hstep
  | storeBelow ptr bytes =>
    rw [step] at hstep
    split at hstep
    · next hfits =>
      obtain rfl := Option.some.inj hstep
      have hwritten := @Memory.read_write s.heap.memory 0 heapBase bytes ptr hfits
      rw [Nat.zero_add] at hwritten
      exact hwritten
    · cases hstep

lemma handOut_served {s : Machine} {answer : ℕ × GuestHeap} {layout : Layout} (hserved : answer.1 ≠ 0)
    (hsize : layout.size ≠ 0) : (s.handOut answer layout).handed =
      s.handed ++ [⟨⟨answer.1, layout.size⟩, layout.align⟩] :=
  if_neg (not_or.mpr ⟨hserved, hsize⟩)

/-- **A request that fits in 32 bits is served**, where the host grants the memory. -/
lemma step_served {s : Machine} {call : Call} {layout : Layout} {top : ℕ} (hbase : 0 < heapBase)
    (hasks : call.asks s = some layout) (hsize : layout.size ≠ 0)
    (htop : s.heap.top heapBase layout = some top) :
    ∃ s' ptr, s.step heapBase call = some s' ∧
      s'.handed = s.handed ++ [⟨⟨ptr, layout.size⟩, layout.align⟩] := by
  unfold Call.asks at hasks
  split at hasks
  · obtain rfl := Option.some.inj hasks
    exact ⟨_, _, rfl, handOut_served (alloc_served hbase hsize htop) hsize⟩
  · next i newSize =>
    obtain ⟨block, hblock, rfl⟩ := Option.map_eq_some_iff.mp hasks
    refine ⟨_, _, by rw [step, hblock]; rfl, handOut_served ?_ hsize⟩
    exact realloc_served hbase hsize htop
  · obtain rfl := Option.some.inj hasks
    exact ⟨_, _, rfl, handOut_served (cabiRealloc_served hbase hsize htop) hsize⟩
  · next i align newLen =>
    obtain ⟨block, hblock, rfl⟩ := Option.map_eq_some_iff.mp hasks
    refine ⟨_, _, by rw [step, hblock]; rfl, handOut_served ?_ hsize⟩
    exact cabiRealloc_served hbase hsize htop
  · cases hasks

lemma laidOut_start (heapBase pages : ℕ) (memory : Memory) :
    (start pages memory).LaidOut heapBase :=
  ⟨.inl rfl, .nil, nofun⟩

end Machine

/-- **The heap of a guest.** After any calls and stores, all blocks ever handed out lie apart, above
the base, in the memory and aligned. The next call changes their bytes as if blocks were byte
strings of their own, and nothing below the heap; and a request for at least one byte that fits in
32 bits, of the guest or of its host, for a new block or for an old one in a new size, is served
where the host grants the memory. -/
theorem guest_heap_safe (heapBase pages : ℕ) (memory : Memory) (calls : List Call) (s : Machine)
    (hrun : Reaches (Machine.step heapBase) (.start pages memory) calls s) :
    s.LaidOut heapBase ∧
      (∀ call s', s.step heapBase call = some s' →
        call.Changes s.contents s'.contents ∧
          s'.below heapBase = call.onBelow (s.below heapBase)) ∧
      ∀ call layout top, 0 < heapBase → call.asks s = some layout → layout.size ≠ 0 →
        s.heap.top heapBase layout = some top →
        ∃ s' ptr, s.step heapBase call = some s' ∧
          s'.handed = s.handed ++ [⟨⟨ptr, layout.size⟩, layout.align⟩] := by
  have hs : s.LaidOut heapBase :=
    hrun.invariant (P := fun _ s => s.LaidOut heapBase) (Machine.laidOut_start _ _ _)
      fun _ _ _ _ hmid hstep => hmid.step hstep
  exact ⟨hs, fun call s' hstep => ⟨Machine.step_changes hs hstep, Machine.step_below hs hstep⟩,
    fun call layout top hbase hasks hsize htop => Machine.step_served hbase hasks hsize htop⟩

/-- A block, a store into it, a larger one that starts with its bytes, one for the host, and a
request for more than the memory can ever hold. -/
theorem guest_heap_safe_sample : ∃ s : Machine,
    Reaches (Machine.step 1048576) (.start 17 fun _ => 0)
      [.alloc true ⟨3, 1⟩, .store 0 1 [7, 8], .realloc true 0 40000, .cabiRealloc true none 8 70000,
        .cabiRealloc false (some 2) 8 4294967295] s ∧
      s.handed.map (fun block => (block.ptr, block.size)) =
        [(1048576, 3), (1048579, 40000), (1088584, 70000)] ∧
      s.heap.pages = 18 ∧ s.LaidOut 1048576 := by
  have hsome : ((([.alloc true ⟨3, 1⟩, .store 0 1 [7, 8], .realloc true 0 40000,
      .cabiRealloc true none 8 70000, .cabiRealloc false (some 2) 8 4294967295] : List Call).foldlM
        (Machine.step 1048576) (.start 17 fun _ => 0)).map fun s =>
          (s.handed.map (fun block => (block.ptr, block.size)), s.heap.pages)) =
      some ([(1048576, 3), (1048579, 40000), (1088584, 70000)], 18) := by
    decide +kernel
  obtain ⟨s, hrun, hs⟩ := Option.map_eq_some_iff.mp hsome
  obtain ⟨hhanded, hpages⟩ := Prod.mk.inj hs
  exact ⟨s, hrun, hhanded, hpages, (guest_heap_safe 1048576 17 _ _ s hrun).1⟩

end GuestHeap

end Pureflow.Wasm
