import Pureflow.Lib.F64

/-!
JSON values as the program's JSON library holds them.

A number is an unsigned integer, a negative integer or a double. An object is the list of its
entries in key order; a lookup takes the first entry of the key.
-/

namespace Pureflow.Lib.Json

inductive Number
  | posInt (n : UInt64)
  | negInt (n : Int64)
  | float (x : F64)
  deriving DecidableEq

namespace Number

def asI64 : Number → Option Int64
  | .posInt n => if n.toNat < 2 ^ 63 then some n.toInt64 else none
  | .negInt n => some n
  | .float _ => none

/-- Integers are rounded to the nearest double. -/
def asF64 : Number → F64
  | .posInt n => .ofUInt64 n
  | .negInt n => .ofInt64 n
  | .float x => x

end Number

inductive Value
  | null
  | bool (b : Bool)
  | number (n : Number)
  | string (s : String)
  | array (items : List Value)
  | object (entries : List (String × Value))

namespace Value

/-- Member of an object; any other value has none. -/
def get : Value → String → Option Value
  | .object entries, key => entries.lookup key
  | _, _ => none

def asF64 : Value → Option F64
  | .number n => some n.asF64
  | _ => none

def asStr : Value → Option String
  | .string s => some s
  | _ => none

/-- A signed integer is held by its sign. -/
def ofInt64 (n : Int64) : Value := .number (if 0 ≤ n then .posInt n.toUInt64 else .negInt n)

/-- A double that is not finite has no JSON number. -/
def ofF64 (x : F64) : Value :=
  match x.unpack with
  | .notANumber => .null
  | .infinity _ => .null
  | _ => .number (.float x)

def isNull : Value → Bool
  | .null => true
  | _ => false

/-- Put an entry where its key belongs; it replaces one of the same key. -/
def insertEntry (key : String) (v : Value) : List (String × Value) → List (String × Value)
  | [] => [(key, v)]
  | (other, w) :: rest =>
    match compare key other with
    | .lt => (key, v) :: (other, w) :: rest
    | .eq => (other, v) :: rest
    | .gt => (other, w) :: insertEntry key v rest

mutual

/-- The strings in a value, at any depth, without the keys. -/
def strings : Value → List String
  | .string s => [s]
  | .array items => stringsItems items
  | .object entries => stringsEntries entries
  | _ => []
termination_by structural v => v

def stringsItems : List Value → List String
  | [] => []
  | v :: rest => strings v ++ stringsItems rest
termination_by structural items => items

def stringsEntries : List (String × Value) → List String
  | [] => []
  | (_, v) :: rest => strings v ++ stringsEntries rest
termination_by structural entries => entries

end

lemma mem_stringsItems {s : String} {items : List Value} :
    s ∈ stringsItems items ↔ ∃ v ∈ items, s ∈ v.strings := by
  induction items with
  | nil => simp [stringsItems]
  | cons v rest ih => simp [stringsItems, ih]

lemma mem_stringsEntries {s : String} {entries : List (String × Value)} :
    s ∈ stringsEntries entries ↔ ∃ e ∈ entries, s ∈ e.2.strings := by
  induction entries with
  | nil => simp [stringsEntries]
  | cons e rest ih => simp [stringsEntries, ih]

mutual

/-- A value as it is built in memory from a document: the entries of objects come in key order,
the last one of a key stays, and integers are held by their sign. -/
def hold : Value → Value
  | .number (.negInt n) => .ofInt64 n
  | .number (.float x) => .ofF64 x
  | .array items => .array (holdItems items)
  | .object entries => .object (holdEntries [] entries)
  | v => v
termination_by structural v => v

def holdItems : List Value → List Value
  | [] => []
  | v :: rest => hold v :: holdItems rest
termination_by structural items => items

def holdEntries (held : List (String × Value)) : List (String × Value) → List (String × Value)
  | [] => held
  | (key, v) :: rest => holdEntries (insertEntry key (hold v) held) rest
termination_by structural entries => entries

end

mutual

/-- Whether two values are the same. -/
def same : Value → Value → Bool
  | .null, .null => true
  | .bool a, .bool b => a = b
  | .number a, .number b => a = b
  | .string a, .string b => a = b
  | .array items, .array items' => sameItems items items'
  | .object entries, .object entries' => sameEntries entries entries'
  | _, _ => false
termination_by structural v => v

def sameItems : List Value → List Value → Bool
  | [], [] => true
  | v :: rest, v' :: rest' => same v v' && sameItems rest rest'
  | _, _ => false
termination_by structural items => items

def sameEntries : List (String × Value) → List (String × Value) → Bool
  | [], [] => true
  | (key, v) :: rest, (key', v') :: rest' => key = key' && (same v v' && sameEntries rest rest')
  | _, _ => false
termination_by structural entries => entries

end

lemma same_iff (v w : Value) : same v w = true ↔ v = w := by
  refine @Value.rec (fun v => ∀ w, same v w = true ↔ v = w)
    (fun items => ∀ items', sameItems items items' = true ↔ items = items')
    (fun entries => ∀ entries', sameEntries entries entries' = true ↔ entries = entries')
    (fun entry => ∀ w, same entry.2 w = true ↔ entry.2 = w)
    ?_ ?_ ?_ ?_ ?_ ?_ ?_ ?_ ?_ ?_ ?_ v w
  · intro w
    cases w <;> simp [same]
  · intro b w
    cases w <;> simp [same]
  · intro n w
    cases w <;> simp [same]
  · intro s w
    cases w <;> simp [same]
  · intro items ih w
    cases w <;> simp [same, ih]
  · intro entries ih w
    cases w <;> simp [same, ih]
  · intro items'
    cases items' <;> simp [sameItems]
  · intro v rest hv hrest items'
    cases items' <;> simp [sameItems, hv, hrest]
  · intro entries'
    cases entries' <;> simp [sameEntries]
  · intro entry rest hentry hrest entries'
    cases entries' <;> simp [sameEntries, hentry, hrest, Prod.ext_iff, and_assoc]
  · intro key v hv
    exact hv

instance : DecidableEq Value := fun v w => decidable_of_iff _ (same_iff v w)

end Value

end Pureflow.Lib.Json
