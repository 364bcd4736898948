import Pureflow.Lib.Json

/-!
Documents as derived deserialisers read them.

A record is an object, read by the names of its fields, or an array, read by their order; what
else an object holds is ignored. A variant of an enumeration is its name, or an object with the
name as its one key and the data as its value. In memory the data of a variant with named fields
must be an object; in text it may be an array too.

The entries of an object stand in the order they were written, so that a repeated key is seen.
-/

namespace Pureflow.Lib.Serde

open Json

/-- Where a document is read from. -/
inductive Form
  | value | text
  deriving DecidableEq

/-- The entry of a key; a key that is missing or repeated has none. -/
def entry (entries : List (String × Value)) (key : String) : Option Value :=
  match entries.filter (·.1 = key) with
  | [(_, v)] => some v
  | _ => none

/-- The document has the shape of a record with these fields. -/
def isRecord (names : List String) : Value → Bool
  | .object _ => true
  | .array items => items.length = names.length
  | _ => false

/-- One field of a record. -/
def member (names : List String) (name : String) : Value → Option Value
  | .object entries => entry entries name
  | .array items => items[names.idxOf name]?
  | _ => none

/-- One field of a record, read. -/
def field {α : Type} (names : List String) (name : String) (read : Value → Option α) (v : Value) :
    Option α :=
  (member names name v).bind read

/-- The data of a variant has the shape of a record with these fields. -/
def isVariantRecord (form : Form) (names : List String) : Value → Bool
  | .array items => form = .text && items.length = names.length
  | v => isRecord names v

/-- The name of a variant. -/
def variantName : Value → Option String
  | .string tag => some tag
  | .object [(tag, _)] => some tag
  | _ => none

def readString : Value → Option String
  | .string s => some s
  | _ => none

def readBool : Value → Option Bool
  | .bool b => some b
  | _ => none

def readU32 : Value → Option UInt32
  | .number (.posInt n) => if n.toNat < 2 ^ 32 then some n.toUInt32 else none
  | .number (.negInt n) => if 0 ≤ n ∧ n.toInt < 2 ^ 32 then some n.toUInt64.toUInt32 else none
  | _ => none

def readI64 : Value → Option Int64
  | .number n => n.asI64
  | _ => none

def readF64 : Value → Option F64
  | .number n => some n.asF64
  | _ => none

/-- The items of an array, each read. -/
def readList {α : Type} (read : Value → Option α) : Value → Option (List α)
  | .array items => items.mapM read
  | _ => none

section Strict

/-- The document has the shape of a record that refuses unknown and repeated fields. An array may
leave out the last fields after the required ones. -/
def isStrictRecord (names : List String) (required : ℕ) : Value → Bool
  | .object entries => entries.all (fun e => names.contains e.1) && decide (entries.map (·.1)).Nodup
  | .array items => required ≤ items.length && items.length ≤ names.length
  | _ => false

/-- An optional value; null is none. -/
def readOption {α : Type} (read : Value → Option α) : Value → Option (Option α)
  | .null => some none
  | v => (read v).map some

/-- One field of a strict record that may be missing. -/
def optionalField {α : Type} (names : List String) (name : String) (read : Value → Option α)
    (v : Value) : Option (Option α) :=
  match member names name v with
  | none => some none
  | some w => readOption read w

/-- A size; the machine's words have 64 bits. -/
def readUsize : Value → Option UInt64
  | .number (.posInt n) => some n
  | .number (.negInt n) => if 0 ≤ n then some n.toUInt64 else none
  | _ => none

/-- Any value, as it is held in memory. -/
def readValue (v : Value) : Option Value := some v.hold

end Strict

section Variants

variable {α β γ : Type} (form : Form)

/-- The variants of an enumeration by name, with what each makes of its data. -/
abbrev Variants (α : Type) := List (String × (Option Value → Option α))

def Variants.read (variants : Variants α) (tag : String) (data : Option Value) : Option α :=
  (variants.lookup tag).bind (· data)

def readEnum (variants : Variants α) : Value → Option α
  | .string tag => variants.read tag none
  | .object [(tag, data)] => variants.read tag (some data)
  | _ => none

/-- A variant without data: none is written, or null. -/
def unitVariant (a : α) : Option Value → Option α
  | none => some a
  | some .null => some a
  | some _ => none

/-- A variant with one unnamed field. -/
def newtypeVariant (read : Value → Option α) (make : α → β) (data : Option Value) : Option β :=
  (data.bind read).map make

/-- A variant with one named field. -/
def variant₁ (name : String) (read : Value → Option α) (make : α → β) (data : Option Value) :
    Option β := do
  let v ← data
  guard (isVariantRecord form [name] v)
  return make (← field [name] name read v)

/-- A variant with two named fields. -/
def variant₂ (name₁ : String) (read₁ : Value → Option α) (name₂ : String)
    (read₂ : Value → Option β) (make : α → β → γ) (data : Option Value) : Option γ := do
  let v ← data
  guard (isVariantRecord form [name₁, name₂] v)
  return make (← field [name₁, name₂] name₁ read₁ v) (← field [name₁, name₂] name₂ read₂ v)

end Variants

section Reads

variable {α β γ : Type} {form : Form} {name name₁ name₂ : String} {read : Value → Option α}
  {read₂ : Value → Option β} {data : Option Value}

lemma field_eq_some {names : List String} {v : Value} {a : α} :
    field names name read v = some a ↔ ∃ w, member names name v = some w ∧ read w = some a :=
  Option.bind_eq_some_iff

lemma member_head (name : String) (names others : List String) (v : Value) :
    member (name :: names) name v = member (name :: others) name v := by
  cases v with
  | array items => simp [member]
  | _ => rfl

section Entries

variable {entries : List (String × Value)} {w : Value}

lemma filter_key_eq (hnd : (entries.map (·.1)).Nodup) (h : (name, w) ∈ entries) :
    entries.filter (·.1 = name) = [(name, w)] := by
  induction entries with
  | nil => cases h
  | cons e rest ih =>
    rw [List.map_cons, List.nodup_cons] at hnd
    rcases List.mem_cons.mp h with rfl | hrest
    · have hnone : rest.filter (·.1 = name) = [] := by
        rw [List.filter_eq_nil_iff]
        intro e he hkey
        obtain rfl : e.1 = name := by simpa using hkey
        exact hnd.1 (List.mem_map.mpr ⟨e, he, rfl⟩)
      simp [hnone]
    · have hne : e.1 ≠ name := by
        rintro rfl
        exact hnd.1 (List.mem_map.mpr ⟨_, hrest, rfl⟩)
      rw [List.filter_cons_of_neg (by simpa using hne), ih hnd.2 hrest]

lemma entry_eq_some (hnd : (entries.map (·.1)).Nodup) :
    entry entries name = some w ↔ (name, w) ∈ entries := by
  unfold entry
  constructor
  · intro h
    split at h
    · next key v hfound =>
      cases h
      have hkey : (key, w) ∈ entries.filter (·.1 = name) := hfound ▸ List.mem_cons_self
      obtain ⟨hmem, hname⟩ := List.mem_filter.mp hkey
      obtain rfl : key = name := by simpa using hname
      exact hmem
    · cases h
  · intro h
    rw [filter_key_eq hnd h]

lemma entry_eq_none (hnd : (entries.map (·.1)).Nodup) :
    entry entries name = none ↔ ∀ w, (name, w) ∉ entries := by
  rw [Option.eq_none_iff_forall_ne_some]
  exact forall_congr' fun w => not_congr (entry_eq_some hnd)

lemma strictRecord_object {names : List String} {required : ℕ} :
    isStrictRecord names required (.object entries) = true ↔
      (∀ e ∈ entries, e.1 ∈ names) ∧ (entries.map (·.1)).Nodup := by
  simp [isStrictRecord]

variable {α : Type} {read : Value → Option α} {names : List String} {required : ℕ}

lemma strict_member (h : isStrictRecord names required (.object entries) = true) :
    member names name (.object entries) = some w ↔ (name, w) ∈ entries :=
  entry_eq_some (strictRecord_object.mp h).2

lemma strict_field_present {a : α} (h : isStrictRecord names required (.object entries) = true)
    (hfield : field names name read (.object entries) = some a) : ∃ w, (name, w) ∈ entries := by
  obtain ⟨w, hw, -⟩ := field_eq_some.mp hfield
  exact ⟨w, (strict_member h).mp hw⟩

lemma strict_field_read {a : α} (h : isStrictRecord names required (.object entries) = true)
    (hfield : field names name read (.object entries) = some a) (hw : (name, w) ∈ entries) :
    read w = some a := by
  obtain ⟨w', hw', hread⟩ := field_eq_some.mp hfield
  obtain rfl : w' = w := Option.some.inj (hw'.symm.trans ((strict_member h).mpr hw))
  exact hread

lemma strict_optional_present {a : α} (h : isStrictRecord names required (.object entries) = true)
    (hfield : optionalField names name read (.object entries) = some (some a)) :
    ∃ w, (name, w) ∈ entries := by
  unfold optionalField at hfield
  split at hfield
  · cases hfield
  · next w hw => exact ⟨w, (strict_member h).mp hw⟩

lemma strict_optional_read {a : Option α}
    (h : isStrictRecord names required (.object entries) = true)
    (hfield : optionalField names name read (.object entries) = some a)
    (hw : (name, w) ∈ entries) : readOption read w = some a := by
  rw [optionalField, (strict_member h).mpr hw] at hfield
  exact hfield

end Entries

lemma Variants.mem_of_read {variants : Variants α} {tag : String} {a : α}
    (h : variants.read tag data = some a) : ∃ read, (tag, read) ∈ variants ∧ read data = some a := by
  obtain ⟨read, hread, ha⟩ := Option.bind_eq_some_iff.mp h
  obtain ⟨before, after, rfl, -⟩ := List.lookup_eq_some_iff.mp hread
  exact ⟨read, by simp, ha⟩

lemma readEnum_eq_some {variants : Variants α} {v : Value} {a : α} (h : readEnum variants v = some a) :
    ∃ tag data read, variantName v = some tag ∧ (tag, read) ∈ variants ∧ read data = some a := by
  unfold readEnum at h
  split at h
  · obtain ⟨read, hmem, hread⟩ := Variants.mem_of_read h
    exact ⟨_, _, read, rfl, hmem, hread⟩
  · obtain ⟨read, hmem, hread⟩ := Variants.mem_of_read h
    exact ⟨_, _, read, rfl, hmem, hread⟩
  · cases h

lemma unitVariant_eq_some {a b : α} (h : unitVariant a data = some b) : b = a := by
  unfold unitVariant at h
  split at h
  · exact (Option.some.inj h).symm
  · exact (Option.some.inj h).symm
  · cases h

lemma newtypeVariant_eq_some {make : α → β} {b : β} (h : newtypeVariant read make data = some b) :
    ∃ a, b = make a := by
  obtain ⟨a, -, rfl⟩ := Option.map_eq_some_iff.mp h
  exact ⟨a, rfl⟩

lemma variant₁_eq_some {make : α → β} {b : β} (h : variant₁ form name read make data = some b) :
    ∃ v w a, data = some v ∧ member [name] name v = some w ∧ read w = some a ∧ b = make a := by
  simp only [variant₁, Option.bind_eq_bind, Option.bind_eq_some_iff, field_eq_some, Option.pure_def,
    Option.some.injEq] at h
  obtain ⟨v, rfl, -, -, a, ⟨w, hw, ha⟩, rfl⟩ := h
  exact ⟨v, w, a, rfl, hw, ha, rfl⟩

lemma variant₂_eq_some {make : α → β → γ} {c : γ}
    (h : variant₂ form name₁ read name₂ read₂ make data = some c) :
    ∃ v w a b, data = some v ∧ member [name₁] name₁ v = some w ∧ read w = some a ∧
      c = make a b := by
  simp only [variant₂, Option.bind_eq_bind, Option.bind_eq_some_iff, field_eq_some, Option.pure_def,
    Option.some.injEq] at h
  obtain ⟨v, rfl, -, -, a, ⟨w, hw, ha⟩, b, -, rfl⟩ := h
  exact ⟨v, w, a, b, rfl, by rwa [member_head name₁ [name₂] []] at hw, ha, rfl⟩

end Reads

end Pureflow.Lib.Serde
