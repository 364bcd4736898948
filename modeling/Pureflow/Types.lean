import Pureflow.Lib.Text

/-!
Shared domain types: the opaque identifiers and their validation.

The five identifier types are one family, differing in the kind their errors name. An
identifier carries the proof that its text passed validation, so a malformed one cannot be
built; it is compared by its text.
-/

namespace Pureflow.Types

open Pureflow.Lib

/-- Maximum identifier length in raw UTF-8 bytes. -/
def maxIdentifierLen : ℕ := 256

inductive IdentifierKind
  | workflow | execution | message | node | port
  deriving DecidableEq

def IdentifierKind.label : IdentifierKind → String
  | .workflow => "workflow id"
  | .execution => "execution id"
  | .message => "message id"
  | .node => "node id"
  | .port => "port id"

inductive IdentifierError
  | empty (kind : IdentifierKind)
  | whitespace (kind : IdentifierKind)
  | control (kind : IdentifierKind)
  | tooLong (kind : IdentifierKind) (limit : ℕ)
  deriving DecidableEq

instance : ToString IdentifierError where
  toString
    | .empty kind => s!"{kind.label} must not be empty"
    | .whitespace kind => s!"{kind.label} must not contain whitespace"
    | .control kind => s!"{kind.label} must not contain control characters"
    | .tooLong kind limit => s!"{kind.label} must not exceed {limit} bytes"

def validateIdentifier (kind : IdentifierKind) (value : String) : Except IdentifierError Unit :=
  if value.utf8ByteSize > maxIdentifierLen then .error (.tooLong kind maxIdentifierLen)
  else if Text.isBlank value then .error (.empty kind)
  else if value.toList.any Text.isWhitespace then .error (.whitespace kind)
  else if value.toList.any Text.isControl then .error (.control kind)
  else .ok ()

/-- No whitespace and no control characters: what identifiers consist of, and texts made of them. -/
structure Clean (value : String) : Prop where
  space : value.toList.any Text.isWhitespace = false
  control : value.toList.any Text.isControl = false

namespace Clean

variable {s t : String} {kind : IdentifierKind}

lemma append (hs : Clean s) (ht : Clean t) : Clean (s ++ t) :=
  ⟨Text.any_append_eq_false hs.space ht.space, Text.any_append_eq_false hs.control ht.control⟩

lemma number (n : ℕ) : Clean (toString n) :=
  ⟨Text.repr_any_eq_false (fun _ => Text.isWhitespace_of_isDigit) n,
    Text.repr_any_eq_false (fun _ => Text.isControl_of_isDigit) n⟩

lemma notBlank (h : Clean s) (hne : s ≠ "") : Text.isBlank s = false := by
  rw [Text.isBlank, List.isEmpty_eq_false_iff, Ne, Text.trim_eq_nil]
  intro hall
  obtain ⟨c, hc⟩ := List.exists_mem_of_ne_nil s.toList (by simpa using hne)
  have hspace := List.any_eq_false.mp h.space c hc
  exact hspace (hall c hc)

/-- **A clean text is valid if and only if it fits**: its length is all there is to check. -/
lemma validate_eq (h : Clean s) (hne : s ≠ "") :
    validateIdentifier kind s =
      if s.utf8ByteSize > maxIdentifierLen then .error (.tooLong kind maxIdentifierLen)
      else .ok () := by
  unfold validateIdentifier
  rw [h.notBlank hne, h.space, h.control]
  rfl

end Clean

/-- A validated identifier of one kind. -/
structure Identifier (kind : IdentifierKind) where
  value : String
  valid : validateIdentifier kind value = .ok ()
  deriving DecidableEq

abbrev WorkflowId := Identifier .workflow
abbrev ExecutionId := Identifier .execution
abbrev MessageId := Identifier .message
abbrev NodeId := Identifier .node
abbrev PortId := Identifier .port

namespace Identifier

variable {kind : IdentifierKind}

def new (kind : IdentifierKind) (value : String) : Except IdentifierError (Identifier kind) :=
  match h : validateIdentifier kind value with
  | .ok () => .ok ⟨value, h⟩
  | .error err => .error err

def asStr (i : Identifier kind) : String := i.value

instance : ToString (Identifier kind) := ⟨asStr⟩

@[ext] lemma ext {a b : Identifier kind} (h : a.value = b.value) : a = b := by
  cases a; cases b; cases h; rfl

lemma value_inj {a b : Identifier kind} : a.value = b.value ↔ a = b :=
  ⟨ext, congrArg value⟩

lemma new_value (i : Identifier kind) : new kind i.value = .ok i := by
  unfold new
  split
  · rfl
  · next err h => rw [i.valid] at h; cases h

lemma value_of_new {value : String} {i : Identifier kind} (h : new kind value = .ok i) :
    i.value = value := by
  unfold new at h
  split at h
  · cases h; rfl
  · cases h

lemma clean (i : Identifier kind) : Clean i.value := by
  have h := i.valid
  unfold validateIdentifier at h
  split_ifs at h with hlong hblank hspace hcontrol
  exact ⟨by simpa using hspace, by simpa using hcontrol⟩

lemma new_of_fits {value : String} (h : Clean value) (hne : value ≠ "")
    (hfits : value.utf8ByteSize ≤ maxIdentifierLen) : ∃ i, new kind value = .ok i := by
  have hvalid : validateIdentifier kind value = .ok () := by
    rw [h.validate_eq hne, if_neg (by omega)]
  exact ⟨⟨value, hvalid⟩, new_value ⟨value, hvalid⟩⟩

lemma new_of_long {value : String} (h : Clean value) (hne : value ≠ "")
    (hlong : maxIdentifierLen < value.utf8ByteSize) :
    new kind value = .error (.tooLong kind maxIdentifierLen) := by
  have herror : validateIdentifier kind value = .error (.tooLong kind maxIdentifierLen) := by
    rw [h.validate_eq hne, if_pos hlong]
  unfold new
  split
  · next hok =>
    rw [herror] at hok
    cases hok
  · next err herr =>
    rw [herror] at herr
    cases herr
    rfl

instance : Ord (Identifier kind) := ⟨fun a b => compare a.value b.value⟩

instance : Std.TransOrd (Identifier kind) where
  eq_swap := Std.OrientedOrd.eq_swap (α := String)
  isLE_trans h h' := Std.TransOrd.isLE_trans (α := String) h h'

instance : Std.LawfulEqOrd (Identifier kind) where
  compare_self := Std.ReflOrd.compare_self (α := String)
  eq_of_compare h := ext (Std.LawfulEqOrd.eq_of_compare h)

instance : LawfulBEq (Identifier kind) := inferInstance

end Identifier

/-! ### The identifiers of the examples -/

lemma workflow_flow_valid : validateIdentifier .workflow "flow" = .ok () := by decide

lemma execution_run_valid : validateIdentifier .execution "run-1" = .ok () := by decide

lemma message_m1_valid : validateIdentifier .message "m1" = .ok () := by decide

lemma node_a_valid : validateIdentifier .node "a" = .ok () := by decide

lemma node_b_valid : validateIdentifier .node "b" = .ok () := by decide

lemma node_c_valid : validateIdentifier .node "c" = .ok () := by decide

lemma node_router_valid : validateIdentifier .node "router" = .ok () := by decide

lemma node_rules_valid : validateIdentifier .node "rules" = .ok () := by decide

lemma port_in_valid : validateIdentifier .port "in" = .ok () := by decide

lemma port_out_valid : validateIdentifier .port "out" = .ok () := by decide

lemma port_left_valid : validateIdentifier .port "left" = .ok () := by decide

lemma port_right_valid : validateIdentifier .port "right" = .ok () := by decide

end Pureflow.Types
