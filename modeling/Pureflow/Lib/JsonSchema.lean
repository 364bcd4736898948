import Pureflow.Lib.Json

/-!
JSON Schema: which documents a schema admits.

A schema is a document itself. The keywords are those that say something of one value: its type,
its size, its members and its items; the others, such as titles, admit everything. A number is an
integer by its value, a text is as long as its characters are many, and patterns are a parameter:
the regular expressions of ECMA-262.
-/

namespace Pureflow.Lib.JsonSchema

open Json

section Numbers

/-- The number a finite double stands for. -/
def ofFloat (x : F64) : Option ℚ :=
  match x.unpack with
  | .zero _ => some 0
  | .finite .positive m e _ => some (m * 2 ^ e)
  | .finite .negative m e _ => some (-(m * 2 ^ e))
  | _ => none

def ofNumber : Number → Option ℚ
  | .posInt n => some n.toNat
  | .negInt n => some n.toInt
  | .float x => ofFloat x

def isInteger (n : Number) : Bool := (ofNumber n).any fun q => q.den = 1

def atLeast (bound n : Number) : Bool :=
  match ofNumber bound, ofNumber n with
  | some b, some q => b ≤ q
  | _, _ => false

end Numbers

/-- The characters that `\S` excludes: white space and line terminators, the byte order mark
among them. -/
def isSpace (c : Char) : Bool :=
  let n := c.toNat
  (9 ≤ n && n ≤ 13) || n == 0x20 || n == 0xA0 || n == 0x1680 || (0x2000 ≤ n && n ≤ 0x200A) ||
    n == 0x2028 || n == 0x2029 || n == 0x202F || n == 0x205F || n == 0x3000 || n == 0xFEFF

/-- The value is of this type. -/
def hasType : String → Value → Bool
  | "null", .null => true
  | "boolean", .bool _ => true
  | "number", .number _ => true
  | "integer", .number n => isInteger n
  | "string", .string _ => true
  | "array", .array _ => true
  | "object", .object _ => true
  | _, _ => false

def hasKey (entries : List (String × Value)) (key : String) : Bool := entries.any (·.1 = key)

/-- The names that `properties` declares. -/
def declaredNames (keywords : List (String × Value)) : List String :=
  match keywords.lookup "properties" with
  | some (.object schemas) => schemas.map (·.1)
  | _ => []

/-- What a keyword without a schema in it says of a value. -/
def assertion (matchesPattern : String → String → Bool) :
    String → Value → Value → Bool
  | "type", .string t, v => hasType t v
  | "const", .string s, v => v.asStr = some s
  | "minLength", .number (.posInt n), .string s => n.toNat ≤ s.length
  | "maxLength", .number (.posInt n), .string s => s.length ≤ n.toNat
  | "pattern", .string p, .string s => matchesPattern p s
  | "minimum", .number bound, .number n => atLeast bound n
  | "required", .array names, .object entries => names.all fun name =>
      name.asStr.any (hasKey entries)
  | "const", _, _ => false
  | "type", _, _ => false
  | _, _, _ => true

/-- What holds of the value of every entry of an object that is selected. -/
def entriesAll (selected : String → Bool) (check : Value → Bool) : Value → Bool
  | .object entries => entries.all fun e => !selected e.1 || check e.2
  | _ => true

def itemsAll (check : Value → Bool) : Value → Bool
  | .array items => items.all check
  | _ => true

mutual

/-- The schema admits the value. -/
def admits (matchesPattern : String → String → Bool) : Value → Value → Bool
  | .bool b, _ => b
  | .object keywords, v => admitsKeywords matchesPattern (declaredNames keywords) keywords v
  | _, _ => false
termination_by structural schema => schema

/-- All keywords of a schema admit the value; the declared names are those of its properties. -/
def admitsKeywords (matchesPattern : String → String → Bool) (declared : List String) :
    List (String × Value) → Value → Bool
  | [], _ => true
  | (keyword, argument) :: rest, v =>
    (match keyword, argument with
      | "items", schema => itemsAll (admits matchesPattern schema) v
      | "additionalProperties", schema =>
        entriesAll (fun key => !declared.contains key) (admits matchesPattern schema) v
      | "properties", .object schemas => admitsProperties matchesPattern schemas v
      | keyword, argument => assertion matchesPattern keyword argument v) &&
    admitsKeywords matchesPattern declared rest v
termination_by structural keywords => keywords

def admitsProperties (matchesPattern : String → String → Bool) :
    List (String × Value) → Value → Bool
  | [], _ => true
  | (name, schema) :: rest, v =>
    entriesAll (· = name) (admits matchesPattern schema) v && admitsProperties matchesPattern rest v
termination_by structural schemas => schemas

end

section Keywords

variable {p : String → String → Bool} {v : Value} {entries keywords : List (String × Value)}

lemma hasKey_eq_true {key : String} :
    hasKey entries key = true ↔ ∃ w, (key, w) ∈ entries := by
  simp [hasKey]

lemma admitsProperties_object {schemas : List (String × Value)} :
    admitsProperties p schemas (.object entries) = true ↔
      ∀ f ∈ schemas, ∀ w, (f.1, w) ∈ entries → admits p f.2 w = true := by
  induction schemas with
  | nil => simp [admitsProperties]
  | cons f rest ih =>
    rw [admitsProperties, Bool.and_eq_true, ih, List.forall_mem_cons]
    refine and_congr_left' ?_
    simp only [entriesAll, List.all_eq_true, Bool.or_eq_true, Bool.not_eq_true',
      decide_eq_false_iff_not]
    constructor
    · intro h w hw
      rcases h (f.1, w) hw with hne | hcheck
      · exact absurd rfl hne
      · exact hcheck
    · rintro h ⟨key, w⟩ he
      by_cases hkey : key = f.1
      · exact .inr (h w (hkey ▸ he))
      · exact .inl hkey

lemma entriesAll_undeclared {declared : List String} :
    entriesAll (fun key => !declared.contains key) (admits p (.bool false)) (.object entries) =
      true ↔ ∀ e ∈ entries, e.1 ∈ declared := by
  simp [entriesAll, admits]

lemma assertion_required {names : List String} :
    assertion p "required" (.array (names.map .string)) (.object entries) = true ↔
      ∀ name ∈ names, ∃ w, (name, w) ∈ entries := by
  simp [assertion, Value.asStr, hasKey_eq_true]

/-- An object with the required names, no undeclared ones, and the entries of the declared names
admitted by their schemas. -/
def AdmitsRecord (p : String → String → Bool) (required : List String)
    (schemas : List (String × Value)) (v : Value) : Prop :=
  ∃ entries, v = .object entries ∧ (∀ e ∈ entries, e.1 ∈ schemas.map (·.1)) ∧
    (∀ name ∈ required, ∃ w, (name, w) ∈ entries) ∧
    ∀ f ∈ schemas, ∀ w, (f.1, w) ∈ entries → admits p f.2 w = true

/-- Keywords that say nothing of the value. -/
def annotations : List String := ["$schema", "$id", "title", "description"]

variable {declared : List String} {before : List (String × Value)}

lemma admitsKeywords_annotations (hbefore : ∀ e ∈ before, e.1 ∈ annotations) :
    admitsKeywords p declared (before ++ keywords) v = admitsKeywords p declared keywords v := by
  induction before with
  | nil => rfl
  | cons e rest ih =>
    obtain ⟨keyword, argument⟩ := e
    obtain ⟨hfirst, hrest⟩ := List.forall_mem_cons.mp hbefore
    have hskip : admitsKeywords p declared ((keyword, argument) :: (rest ++ keywords)) v =
        admitsKeywords p declared (rest ++ keywords) v := by
      simp only [annotations, List.mem_cons, List.not_mem_nil, or_false] at hfirst
      rcases hfirst with rfl | rfl | rfl | rfl <;> rfl
    rw [List.cons_append, hskip, ih hrest]

lemma declaredNames_annotations (hbefore : ∀ e ∈ before, e.1 ∈ annotations) :
    declaredNames (before ++ keywords) = declaredNames keywords := by
  induction before with
  | nil => rfl
  | cons e rest ih =>
    obtain ⟨hfirst, hrest⟩ := List.forall_mem_cons.mp hbefore
    have hne : "properties" ≠ e.1 := by
      rintro heq
      rw [← heq] at hfirst
      exact absurd hfirst (by decide)
    have hlookup : (e :: (rest ++ keywords)).lookup "properties" =
        (rest ++ keywords).lookup "properties" := by
      rw [List.lookup_cons, beq_false_of_ne hne]
    rw [← ih hrest, declaredNames, List.cons_append, hlookup]
    rfl

/-- **A record schema**: between annotations, its keywords are those of an object with required
names and no undeclared ones. -/
theorem admits_record (required : List String) (schemas before between : List (String × Value))
    (hbefore : ∀ e ∈ before, e.1 ∈ annotations) (hbetween : ∀ e ∈ between, e.1 ∈ annotations) :
    admits p (.object (before ++ ([("type", .string "object"),
      ("additionalProperties", .bool false), ("required", .array (required.map .string))] ++
      (between ++ [("properties", .object schemas)])))) v = true ↔
        AdmitsRecord p required schemas v := by
  have hdeclared : declaredNames ([("type", .string "object"),
      ("additionalProperties", .bool false), ("required", .array (required.map .string))] ++
      (between ++ [("properties", .object schemas)])) = schemas.map (·.1) := by
    show declaredNames (between ++ [("properties", .object schemas)]) = _
    rw [declaredNames_annotations hbetween]
    rfl
  rw [admits, admitsKeywords_annotations hbefore, declaredNames_annotations hbefore, hdeclared]
  cases v with
  | object entries =>
    have hproperties : admitsKeywords p (schemas.map (·.1)) [("properties", .object schemas)]
        (.object entries) = admitsProperties p schemas (.object entries) := Bool.and_true _
    have htype : assertion p "type" (.string "object") (.object entries) = true := rfl
    have hkeywords : admitsKeywords p (schemas.map (·.1)) ([("type", .string "object"),
        ("additionalProperties", .bool false), ("required", .array (required.map .string))] ++
        (between ++ [("properties", .object schemas)])) (.object entries) =
      (assertion p "type" (.string "object") (.object entries) &&
        (entriesAll (fun key => !(schemas.map (·.1)).contains key) (admits p (.bool false))
          (.object entries) &&
        (assertion p "required" (.array (required.map .string)) (.object entries) &&
          admitsKeywords p (schemas.map (·.1)) (between ++ [("properties", .object schemas)])
            (.object entries)))) := rfl
    rw [hkeywords, htype, admitsKeywords_annotations hbetween, hproperties, Bool.true_and,
      Bool.and_eq_true, Bool.and_eq_true, entriesAll_undeclared, assertion_required,
      admitsProperties_object]
    constructor
    · intro h
      exact ⟨entries, rfl, h⟩
    · rintro ⟨entries', heq, h⟩
      cases heq
      exact h
  | _ =>
    -- no other value has the type
    constructor
    · intro h
      cases h
    · rintro ⟨entries, heq, -⟩
      cases heq

end Keywords

end Pureflow.Lib.JsonSchema
