import Pureflow.Core.Error
import Pureflow.Lib.Splits

/-!
What the texts of errors tell: an error can be read off its text.

An identifier holds no whitespace, so a text falls into the words it was written with, the
identifiers among them between backticks. The words differ from one error to the next.
-/

namespace Pureflow.Core

open Pureflow.Types Pureflow.Lib

section Words

/-- A name as texts give it. -/
def quoted (name : String) : String := "`" ++ name ++ "`"

lemma quoted_inj {s t : String} : quoted s = quoted t ↔ s = t := by
  simp [quoted]

lemma space_notMem_of_any {s : String} (h : s.toList.any Text.isWhitespace = false) :
    ' ' ∉ s.toList := by
  intro hmem
  have hspace := List.any_eq_false.mp h ' ' hmem
  exact hspace (by decide)

lemma space_notMem_quoted {kind : IdentifierKind} (i : Identifier kind) :
    ' ' ∉ (quoted i.value).toList := by
  have hvalue := space_notMem_of_any i.clean.space
  simpa [quoted] using hvalue

lemma space_notMem_debug (effect : EffectCapability) : ' ' ∉ (quoted effect.debug).toList := by
  cases effect <;> decide

lemma space_notMem_label (direction : PortCapabilityDirection) : ' ' ∉ direction.label.toList := by
  cases direction <;> decide

lemma debug_inj {e f : EffectCapability} : e.debug = f.debug ↔ e = f := by
  cases e <;> cases f <;> decide

lemma label_inj {d e : PortCapabilityDirection} : d.label = e.label ↔ d = e := by
  cases d <;> cases e <;> decide

lemma words_eq {words words' : List String} (h : ∀ w ∈ words, ' ' ∉ w.toList)
    (hne : words ≠ []) (h' : ∀ w ∈ words', ' ' ∉ w.toList) (hne' : words' ≠ [])
    (heq : [' '].intercalate (words.map String.toList) =
      [' '].intercalate (words'.map String.toList)) : words = words' := by
  have hlists := eq_of_intercalate_eq (List.forall_mem_map.mpr h)
    (by simpa using hne) (List.forall_mem_map.mpr h') (by simpa using hne') heq
  have hinjective : Function.Injective (List.map String.toList) :=
    List.map_injective_iff.mpr fun _ _ => String.toList_inj.mp
  exact hinjective hlists

end Words

namespace CapabilityValidationError

/-- The words of the text. -/
def words : CapabilityValidationError → List String
  | .duplicateEffect nodeId effect =>
    ["node", quoted nodeId.value, "declares", "duplicate", "effect", "capability",
      quoted effect.debug]
  | .duplicatePortCapability nodeId portId direction =>
    ["node", quoted nodeId.value, "declares", "duplicate", direction.label, "capability", "for",
      "port", quoted portId.value]
  | .conflictingPortDirection nodeId portId =>
    ["node", quoted nodeId.value, "declares", "port", quoted portId.value, "for", "both",
      "receive", "and", "emit"]
  | .unknownCapabilityNode nodeId =>
    ["capability", "descriptor", "references", "unknown", "workflow", "node",
      quoted nodeId.value]
  | .unknownCapabilityPort nodeId portId =>
    ["node", quoted nodeId.value, "capability", "references", "unknown", "workflow", "port",
      quoted portId.value]
  | .capabilityDirectionMismatch nodeId portId claimed declared =>
    ["node", quoted nodeId.value, "capability", "claims", "port", quoted portId.value, "may",
      claimed.label, "but", "workflow", "declares", declared.label]
  | .unenforceableEffectCapability nodeId effect =>
    ["node", quoted nodeId.value, "declares", "effect", "capability", quoted effect.debug, "that",
      "is", "not", "enforceable", "by", "its", "execution", "boundary"]

lemma toList_toString (err : CapabilityValidationError) :
    (toString err).toList = [' '].intercalate (err.words.map String.toList) := by
  cases err <;> simp [toString, words, quoted, Identifier.asStr, List.intercalate]

lemma words_ne_nil (err : CapabilityValidationError) : err.words ≠ [] := by
  cases err <;> simp [words]

lemma space_notMem_words (err : CapabilityValidationError) : ∀ w ∈ err.words, ' ' ∉ w.toList := by
  cases err <;>
    simp [words, space_notMem_quoted, space_notMem_debug, space_notMem_label]

lemma words_injective : Function.Injective words := by
  intro err err' h
  cases err <;> cases err' <;>
    simp_all [words, quoted_inj, Identifier.value_inj, debug_inj, label_inj]

/-- **The text tells the error.** -/
theorem toString_injective : Function.Injective (toString : CapabilityValidationError → String) := by
  intro err err' h
  have hlists := congrArg String.toList h
  rw [toList_toString, toList_toString] at hlists
  exact words_injective (words_eq err.space_notMem_words err.words_ne_nil
    err'.space_notMem_words err'.words_ne_nil hlists)

end CapabilityValidationError

section Identifiers

/-- What an identifier of the kind is of. -/
def kindName : IdentifierKind → String
  | .workflow => "workflow"
  | .execution => "execution"
  | .message => "message"
  | .node => "node"
  | .port => "port"

lemma toList_label (kind : IdentifierKind) :
    kind.label.toList = (kindName kind).toList ++ ' ' :: "id".toList := by
  cases kind <;> decide

lemma kindName_inj {k l : IdentifierKind} : kindName k = kindName l ↔ k = l := by
  cases k <;> cases l <;> decide

/-- The words of the text. -/
def identifierWords : IdentifierError → List String
  | .empty kind => [kindName kind, "id", "must", "not", "be", "empty"]
  | .whitespace kind => [kindName kind, "id", "must", "not", "contain", "whitespace"]
  | .control kind => [kindName kind, "id", "must", "not", "contain", "control", "characters"]
  | .tooLong kind limit =>
    [kindName kind, "id", "must", "not", "exceed", toString limit, "bytes"]

lemma toList_identifierError (err : IdentifierError) :
    (toString err).toList = [' '].intercalate ((identifierWords err).map String.toList) := by
  cases err <;> simp [toString, identifierWords, toList_label, List.intercalate]

lemma identifierWords_ne_nil (err : IdentifierError) : identifierWords err ≠ [] := by
  cases err <;> simp [identifierWords]

lemma space_notMem_kindName (kind : IdentifierKind) : ' ' ∉ (kindName kind).toList := by
  cases kind <;> decide

lemma space_notMem_identifierWords (err : IdentifierError) :
    ∀ w ∈ identifierWords err, ' ' ∉ w.toList := by
  cases err with
  | tooLong kind limit =>
    have hlimit := space_notMem_of_any (Clean.number limit).space
    simpa [identifierWords, space_notMem_kindName] using hlimit
  | _ => simp [identifierWords, space_notMem_kindName]

lemma identifierWords_injective : Function.Injective identifierWords := by
  intro err err' h
  cases err <;> cases err' <;> simp_all [identifierWords, kindName_inj]

/-- **The text tells the error.** -/
theorem identifierError_toString_injective :
    Function.Injective (toString : IdentifierError → String) := by
  intro err err' h
  have hlists := congrArg String.toList h
  rw [toList_identifierError, toList_identifierError] at hlists
  exact identifierWords_injective (words_eq (space_notMem_identifierWords err)
    (identifierWords_ne_nil err) (space_notMem_identifierWords err') (identifierWords_ne_nil err')
    hlists)

end Identifiers

namespace PureflowError

lemma detail_inj {err err' : PureflowError} (hcode : err.code = err'.code)
    (h : err.detail = err'.detail) : err = err' := by
  cases err with
  | validation v =>
    cases err' with
    | validation v' =>
      cases v with
      | identifier e =>
        cases v' with
        | identifier e' =>
          rw [identifierError_toString_injective ((String.append_right_inj _).mp h)]
        | capability e' => cases hcode
      | capability e =>
        cases v' with
        | identifier e' => cases hcode
        | capability e' =>
          rw [CapabilityValidationError.toString_injective ((String.append_right_inj _).mp h)]
    | _ => cases v <;> cases hcode
  | execution m | cancellation m | lifecycle m | metadata m =>
    cases err' with
    | validation v => cases v <;> cases hcode
    | _ m' =>
      first
      | cases hcode; done
      | have hm : m = m' := (String.append_right_inj _).mp h
        rw [hm]

/-- **The text tells the error**, given its code. -/
theorem toString_inj {err err' : PureflowError} (hcode : err.code = err'.code)
    (h : toString err = toString err') : err = err' := by
  refine detail_inj hcode ?_
  have htext (e : PureflowError) : toString e = e.code.asStr ++ ": " ++ e.detail := rfl
  rw [htext, htext, hcode] at h
  simpa using h

end PureflowError

end Pureflow.Core
