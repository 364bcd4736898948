import Mathlib.Data.List.Basic
import Mathlib.Tactic.Linarith

/-!
A memory of bytes, and regions of it that lie apart.

A write into one region changes the bytes of that region only; a memory that is only written
inside its regions is a list of byte strings that do not know of each other.
-/

namespace Pureflow.Lib

/-- A memory: the byte at every address. -/
abbrev Memory := ℕ → UInt8

namespace Memory

variable {m : Memory} {ptr n : ℕ} {bytes : List UInt8}

def read (m : Memory) (ptr n : ℕ) : List UInt8 :=
  (List.range n).map fun i => m (ptr + i)

def write (m : Memory) (ptr : ℕ) (bytes : List UInt8) : Memory := fun a =>
  if ptr ≤ a then (bytes[a - ptr]?).getD (m a) else m a

/-- The bytes of `src` are read before the first one of `dst` is written. -/
def copy (m : Memory) (src dst n : ℕ) : Memory :=
  m.write dst (m.read src n)

@[simp]
lemma length_read : (m.read ptr n).length = n := by
  simp [read]

lemma read_take (k : ℕ) : (m.read ptr n).take k = m.read ptr (min k n) := by
  rw [read, ← List.map_take, List.take_range, read]

lemma write_inside {i : ℕ} (h : i < bytes.length) :
    m.write ptr bytes (ptr + i) = bytes[i] := by
  simp [write, h]

lemma write_outside {a : ℕ} (h : a < ptr ∨ ptr + bytes.length ≤ a) :
    m.write ptr bytes a = m a := by
  unfold write
  split
  · rw [List.getElem?_eq_none (by omega), Option.getD_none]
  · rfl

lemma read_congr {m' : Memory} (h : ∀ a, ptr ≤ a → a < ptr + n → m' a = m a) :
    m'.read ptr n = m.read ptr n := by
  refine List.map_congr_left fun i hi => h _ (by omega) ?_
  rw [List.mem_range] at hi
  omega

/-- `bytes` put over what stands at `offset`. -/
def splice (old : List UInt8) (offset : ℕ) (bytes : List UInt8) : List UInt8 :=
  old.take offset ++ bytes ++ old.drop (offset + bytes.length)

lemma getElem?_splice {old : List UInt8} {offset : ℕ} (h : offset + bytes.length ≤ old.length)
    (i : ℕ) : (splice old offset bytes)[i]? =
      if offset ≤ i ∧ i - offset < bytes.length then bytes[i - offset]? else old[i]? := by
  unfold splice
  split
  · next hinside =>
    rw [List.append_assoc, List.getElem?_append_right (by simp; omega),
      List.getElem?_append_left (by simp; omega), List.length_take, Nat.min_eq_left (by omega)]
  · next houtside =>
    rcases Nat.lt_or_ge i offset with hbefore | hafter
    · rw [List.append_assoc, List.getElem?_append_left (by simp; omega),
        List.getElem?_take_of_lt hbefore]
    · have hpast : bytes.length ≤ i - offset := not_lt.mp fun hlt => houtside ⟨hafter, hlt⟩
      rw [List.getElem?_append_right (by simp; omega), List.getElem?_drop, List.length_append,
        List.length_take, Nat.min_eq_left (by omega)]
      congr 1
      omega

lemma getElem?_read (i : ℕ) :
    (m.read ptr n)[i]? = if i < n then some (m (ptr + i)) else none := by
  rw [read, List.getElem?_map]
  split
  · next h => rw [List.getElem?_range h, Option.map_some]
  · next h => rw [List.getElem?_eq_none (by simpa using h), Option.map_none]

lemma splice_zero {old : List UInt8} : splice old 0 bytes = bytes ++ old.drop bytes.length := by
  rw [splice, List.take_zero, List.nil_append, Nat.zero_add]

lemma read_write {offset : ℕ} (h : offset + bytes.length ≤ n) :
    (m.write (ptr + offset) bytes).read ptr n = splice (m.read ptr n) offset bytes := by
  refine List.ext_getElem? fun i => ?_
  rw [getElem?_splice (by rwa [length_read]), getElem?_read, getElem?_read]
  by_cases hinside : offset ≤ i ∧ i - offset < bytes.length
  · have hi : ptr + offset + (i - offset) = ptr + i := by omega
    have hwritten := hi ▸ write_inside (m := m) hinside.2
    rw [if_pos hinside, if_pos (by omega), List.getElem?_eq_getElem hinside.2]
    exact congrArg some hwritten
  · rw [if_neg hinside, write_outside]
    by_contra hbetween
    exact hinside (by omega)

end Memory

/-- The bytes from `ptr` on, `size` of them. -/
structure Region where
  ptr : ℕ
  size : ℕ
deriving Repr, DecidableEq

namespace Region

def Apart (r r' : Region) : Prop :=
  r.ptr + r.size ≤ r'.ptr ∨ r'.ptr + r'.size ≤ r.ptr

lemma Apart.symm {r r' : Region} (h : r.Apart r') : r'.Apart r :=
  Or.symm h

def bytes (m : Memory) (r : Region) : List UInt8 :=
  m.read r.ptr r.size

variable {m : Memory} {r r' : Region} {offset : ℕ} {data : List UInt8}

lemma bytes_write_self (h : offset + data.length ≤ r.size) :
    r.bytes (m.write (r.ptr + offset) data) = Memory.splice (r.bytes m) offset data :=
  Memory.read_write h

lemma bytes_write_apart (hapart : r.Apart r') (h : offset + data.length ≤ r.size) :
    r'.bytes (m.write (r.ptr + offset) data) = r'.bytes m := by
  refine Memory.read_congr fun a ha ha' => Memory.write_outside ?_
  rcases hapart with hbefore | hafter
  · exact .inr (by omega)
  · exact .inl (by omega)

/-- **A write into one of several regions** that lie apart is a change of this one's bytes. -/
theorem map_bytes_write {regions : List Region} (hapart : regions.Pairwise Apart) {i : ℕ}
    (hi : regions[i]? = some r) (h : offset + data.length ≤ r.size) :
    regions.map (bytes (m.write (r.ptr + offset) data)) =
      (regions.map (bytes m)).set i (Memory.splice (r.bytes m) offset data) := by
  refine List.ext_getElem (by simp) fun j hj hj' => ?_
  obtain ⟨hlt, rfl⟩ := List.getElem?_eq_some_iff.mp hi
  rw [List.length_map] at hj
  rw [List.getElem_map, List.getElem_set]
  split
  · next heq =>
    subst heq
    exact bytes_write_self h
  · next hne =>
    rw [List.getElem_map]
    refine bytes_write_apart ?_ h
    rcases Nat.lt_or_gt_of_ne hne with hlt' | hlt'
    · exact List.pairwise_iff_getElem.mp hapart i j hlt hj hlt'
    · exact (List.pairwise_iff_getElem.mp hapart j i hj hlt hlt').symm

lemma map_bytes_append_write {regions : List Region}
    (hapart : (regions ++ [r]).Pairwise Apart) (h : data.length ≤ r.size) :
    (regions ++ [r]).map (bytes (m.write r.ptr data)) =
      regions.map (bytes m) ++ [data ++ (r.bytes m).drop data.length] := by
  rw [List.map_append, List.map_singleton]
  have hself : r.bytes (m.write (r.ptr + 0) data) = Memory.splice (r.bytes m) 0 data :=
    bytes_write_self (by rwa [Nat.zero_add])
  rw [Nat.add_zero, Memory.splice_zero] at hself
  rw [hself]
  congr 1
  refine List.map_congr_left fun r' hr' => ?_
  have hapart' := (List.pairwise_append.mp hapart).2.2 r' hr' r (List.mem_singleton_self r)
  have hother : r'.bytes (m.write (r.ptr + 0) data) = r'.bytes m :=
    bytes_write_apart hapart'.symm (by rwa [Nat.zero_add])
  exact hother

lemma map_bytes_congr {regions : List Region} {m' : Memory}
    (h : ∀ r ∈ regions, ∀ a, r.ptr ≤ a → a < r.ptr + r.size → m' a = m a) :
    regions.map (bytes m') = regions.map (bytes m) :=
  List.map_congr_left fun r hr => Memory.read_congr (h r hr)

end Region

end Pureflow.Lib
