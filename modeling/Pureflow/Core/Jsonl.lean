import Pureflow.Core.Projection
import Pureflow.Lib.Turns

/-!
The JSONL sink: one line for each record, as long as the writer does not fail inside of one.

A record is written in several writes, its JSON first and the newline last, and each of them may
fail after a part of its bytes. The part stays in the output. Nothing ends the line it began, so
the next record that is written in full is written behind it.

The JSON library's writer is a parameter: the writes it makes for a value. It escapes control
characters, so there is no newline in them.
-/

namespace Pureflow.Core

open Pureflow.Lib

/-- What becomes of a write: all bytes are taken, or a first part of them before it fails. -/
inductive WriteAnswer
  | written
  | failed (taken : ℕ) (error : String)

/-- The operations of a sink on the writer behind its lock. -/
inductive SinkOp
  | lockWriter
  | writeAll (bytes : List UInt8)

/-- The lock is held or poisoned. -/
def SinkOp.Answer : SinkOp → Type
  | .lockWriter => Bool
  | .writeAll _ => WriteAnswer

abbrev SinkEvent := Prog.Event SinkOp.Answer

/-- A call on the sink. -/
abbrev SinkM := Prog SinkOp SinkOp.Answer

def SinkM.lockWriter : SinkM Bool := Prog.perform SinkOp.lockWriter

def SinkM.writeAll (bytes : List UInt8) : SinkM WriteAnswer := Prog.perform (SinkOp.writeAll bytes)

/-- The byte `\n`. -/
def newline : UInt8 := 10

namespace JsonlMetadataSink

/-- The writes of the JSON library, up to the first that fails. -/
def toWriter : List (List UInt8) → SinkM (Except String Unit)
  | [] => return .ok ()
  | bytes :: rest => do
    match ← SinkM.writeAll bytes with
    | .written => toWriter rest
    | .failed _ source => return .error source

def writeNewline : SinkM (Except PureflowError Unit) := do
  match ← SinkM.writeAll [newline] with
  | .written => return .ok ()
  | .failed _ source =>
    return .error (.metadata s!"failed to write metadata JSONL newline: {source}")

variable (encode : Json.Value → List (List UInt8))

def record (record : MetadataRecord) : SinkM (Except PureflowError Unit) := do
  let value := metadataRecordToJsonValue record
  match ← SinkM.lockWriter with
  | false => return .error (.metadata "metadata JSONL writer lock poisoned")
  | true =>
    match ← toWriter (encode value) with
    | .error source =>
      return .error (.metadata s!"failed to encode metadata JSONL record: {source}")
    | .ok () => writeNewline

/-- The JSON of a record as it is written. -/
def text (record : MetadataRecord) : List UInt8 := (encode (metadataRecordToJsonValue record)).flatten

/-- What is written of a value has no newline. -/
def Compact : Prop := ∀ v, ∀ bytes ∈ encode v, newline ∉ bytes

end JsonlMetadataSink

open JsonlMetadataSink

section Answers

/-- The bytes an event leaves in the output. -/
def takenBy : SinkEvent → List UInt8
  | ⟨.writeAll bytes, .written⟩ => bytes
  | ⟨.writeAll bytes, .failed taken _⟩ => bytes.take taken
  | ⟨.lockWriter, _⟩ => []

def taken (events : List SinkEvent) : List UInt8 := events.flatMap takenBy

/-- The lock and the writer do what they are asked for. -/
def Obliges : SinkEvent → Prop
  | ⟨.writeAll _, .written⟩ => True
  | ⟨.writeAll _, .failed _ _⟩ => False
  | ⟨.lockWriter, held⟩ => held = true

/-- The writer takes everything. -/
def Whole (events : List SinkEvent) : Prop := ∀ e ∈ events, Obliges e

/-- The writer takes a part that does not end its line. -/
def Torn (events : List SinkEvent) : Prop :=
  ∃ bytes b, taken events = bytes ++ [b] ∧ b ≠ newline

@[simp] lemma taken_nil : taken [] = [] := rfl

@[simp] lemma taken_cons (e : SinkEvent) (events : List SinkEvent) :
    taken (e :: events) = takenBy e ++ taken events := rfl

@[simp] lemma taken_append (events more : List SinkEvent) :
    taken (events ++ more) = taken events ++ taken more := List.flatMap_append

@[simp] lemma whole_nil : Whole [] := fun _ h => by cases h

@[simp] lemma whole_cons {e : SinkEvent} {events : List SinkEvent} :
    Whole (e :: events) ↔ Obliges e ∧ Whole events := List.forall_mem_cons

@[simp] lemma whole_append {events more : List SinkEvent} :
    Whole (events ++ more) ↔ Whole events ∧ Whole more := List.forall_mem_append

end Answers

section Calls

variable {encode : Json.Value → List (List UInt8)} {r : MetadataRecord} {events : List SinkEvent}

lemma yields_lockWriter {α : Type} {k : Bool → SinkM α} {a : α} :
    Prog.Yields (SinkM.lockWriter >>= k) events a ↔
      ∃ held rest, events = ⟨.lockWriter, held⟩ :: rest ∧ Prog.Yields (k held) rest a :=
  Prog.yields_call

lemma yields_writeAll {α : Type} {bytes : List UInt8} {k : WriteAnswer → SinkM α} {a : α} :
    Prog.Yields (SinkM.writeAll bytes >>= k) events a ↔
      ∃ answer rest, events = ⟨.writeAll bytes, answer⟩ :: rest ∧
        Prog.Yields (k answer) rest a :=
  Prog.yields_call

/-- The writes of a value are all taken, or the last one made fails. -/
lemma toWriter_cases {chunks : List (List UInt8)} {result : Except String Unit}
    (h : (toWriter chunks).Yields events result) :
    (result = .ok () ∧ Whole events ∧ taken events = chunks.flatten) ∨
      ((∃ source, result = .error source) ∧ ¬ Whole events ∧ taken events <+: chunks.flatten) := by
  induction chunks generalizing events with
  | nil =>
    obtain ⟨rfl, rfl⟩ := Prog.yields_ret.mp h
    exact .inl ⟨rfl, whole_nil, rfl⟩
  | cons bytes rest ih =>
    rw [toWriter, yields_writeAll] at h
    obtain ⟨answer, events, rfl, h⟩ := h
    cases answer with
    | written =>
      rcases ih h with ⟨hresult, hwhole, htaken⟩ | ⟨hresult, hwhole, htaken⟩
      · exact .inl ⟨hresult, whole_cons.mpr ⟨trivial, hwhole⟩, by simp [takenBy, htaken]⟩
      · refine .inr ⟨hresult, fun hall => hwhole (whole_cons.mp hall).2, ?_⟩
        rw [taken_cons, List.flatten_cons]
        exact (List.prefix_append_right_inj _).mpr htaken
    | failed n source =>
      obtain ⟨rfl, rfl⟩ := Prog.yields_ret.mp h
      refine .inr ⟨⟨source, rfl⟩, fun hall => (whole_cons.mp hall).1, ?_⟩
      rw [taken_cons, taken_nil, List.append_nil, List.flatten_cons]
      exact (List.take_prefix n bytes).trans (List.prefix_append _ _)

/-- **What a call does**: it writes the line of its record and succeeds, or it fails and leaves a
first part of the line. -/
theorem record_cases {result : Except PureflowError Unit}
    (h : (record encode r).Yields events result) :
    (result = .ok () ∧ Whole events ∧ taken events = text encode r ++ [newline]) ∨
      ((∃ err, result = .error err) ∧ ¬ Whole events ∧
        taken events <+: text encode r ++ [newline]) := by
  rw [record, yields_lockWriter] at h
  obtain ⟨held, events, rfl, h⟩ := h
  cases held with
  | false =>
    obtain ⟨rfl, rfl⟩ := Prog.yields_ret.mp h
    exact .inr ⟨⟨_, rfl⟩, fun hall => Bool.false_ne_true (whole_cons.mp hall).1, List.nil_prefix⟩
  | true =>
    obtain ⟨written, before, after, rfl, hbefore, hafter⟩ := Prog.yields_bind.mp h
    rcases toWriter_cases hbefore with ⟨rfl, hwhole, htaken⟩ | ⟨⟨source, rfl⟩, hwhole, htaken⟩
    · rw [writeNewline, yields_writeAll] at hafter
      obtain ⟨answer, after, rfl, hafter⟩ := hafter
      cases answer with
      | written =>
        obtain ⟨rfl, rfl⟩ := Prog.yields_ret.mp hafter
        have hline : Whole (before ++ [⟨.writeAll [newline], .written⟩]) := by
          simp [hwhole, Obliges]
        refine .inl ⟨rfl, whole_cons.mpr ⟨rfl, hline⟩, ?_⟩
        simp [takenBy, htaken, text]
      | failed n source =>
        obtain ⟨rfl, rfl⟩ := Prog.yields_ret.mp hafter
        refine .inr ⟨⟨_, rfl⟩, by simp [Obliges], ?_⟩
        simp only [taken_cons, takenBy, taken_append, taken_nil, List.nil_append, List.append_nil,
          htaken, text]
        exact (List.prefix_append_right_inj _).mpr (List.take_prefix n _)
    · obtain ⟨rfl, rfl⟩ := Prog.yields_ret.mp hafter
      refine .inr ⟨⟨_, rfl⟩, fun hall => hwhole ?_, ?_⟩
      · simpa using (whole_cons.mp hall).2
      · simp only [taken_cons, takenBy, List.nil_append, List.append_nil]
        exact htaken.trans (List.prefix_append _ _)

end Calls

section Runs

variable (encode : Json.Value → List (List UInt8))

/-- A call on the sink and what the lock and the writer answered to it. -/
structure SinkCall where
  record : MetadataRecord
  events : List SinkEvent
  result : Except PureflowError Unit
  yields : Prog.Yields (JsonlMetadataSink.record encode record) events result

/-- What the writer has taken after some calls. -/
def outputOf (calls : List (SinkCall encode)) : List UInt8 := calls.flatMap fun c => taken c.events

/-- A line begins where an output ends. -/
def AtLineStart (output : List UInt8) : Prop := ∀ b ∈ output.getLast?, b = newline

/-- A call that succeeds leaves the JSON of its record as one line of the final output. -/
def LineIntegrity (calls : List (SinkCall encode)) : Prop :=
  ∀ before call after, calls = before ++ call :: after → call.result = .ok () →
    AtLineStart (outputOf encode before) ∧ newline ∉ text encode call.record ∧
      ∃ rest, outputOf encode calls =
        outputOf encode before ++ text encode call.record ++ newline :: rest

/-- The writer takes no record in full behind one it has taken a part of, with nothing between
them. -/
def Unbroken (calls : List (SinkCall encode)) : Prop :=
  ∀ before torn between whole after, calls = before ++ torn :: between ++ whole :: after →
    Torn torn.events → (∀ c ∈ between, taken c.events = []) → ¬ Whole whole.events

variable {encode} {calls more : List (SinkCall encode)} {call : SinkCall encode}

lemma outputOf_append : outputOf encode (calls ++ more) = outputOf encode calls ++
    outputOf encode more := List.flatMap_append

lemma outputOf_cons : outputOf encode (call :: calls) = taken call.events ++
    outputOf encode calls := rfl

lemma ok_iff_whole : call.result = .ok () ↔ Whole call.events := by
  rcases record_cases call.yields with ⟨hresult, hwhole, -⟩ | ⟨⟨err, hresult⟩, hwhole, -⟩
  · exact iff_of_true hresult hwhole
  · exact iff_of_false (by rw [hresult]; exact fun h => by cases h) hwhole

lemma taken_of_whole (h : Whole call.events) :
    taken call.events = text encode call.record ++ [newline] := by
  rcases record_cases call.yields with ⟨-, -, htaken⟩ | ⟨-, hnot, -⟩
  · exact htaken
  · exact absurd h hnot

lemma newline_notMem_text (hencode : Compact encode) (r : MetadataRecord) :
    newline ∉ text encode r := by
  rw [text, List.mem_flatten]
  rintro ⟨bytes, hbytes, hmem⟩
  exact hencode _ bytes hbytes hmem

lemma atLineStart_nil : AtLineStart [] := fun _ h => by cases h

lemma atLineStart_append {output bytes : List UInt8} (h : bytes ≠ []) :
    AtLineStart (output ++ bytes) ↔ AtLineStart bytes := by
  rw [AtLineStart, AtLineStart, List.getLast?_append_of_ne_nil _ h]

lemma not_torn_iff {events : List SinkEvent} : ¬ Torn events ↔ AtLineStart (taken events) := by
  rcases List.eq_nil_or_concat (taken events) with hnil | ⟨bytes, b, hconcat⟩
  · simp [Torn, hnil, AtLineStart]
  · simp [Torn, hconcat, AtLineStart]

lemma concat_eq_append_cons {c : SinkCall encode} {before between : List (SinkCall encode)}
    (h : calls ++ [c] = before ++ call :: between) :
    between = [] ∧ call = c ∨ ∃ init, between = init ++ [c] ∧ calls = before ++ call :: init := by
  rcases List.eq_nil_or_concat between with rfl | ⟨init, d, rfl⟩
  · exact .inl ⟨rfl, (List.singleton_inj.mp (List.append_inj' h rfl).2).symm⟩
  · rw [List.concat_eq_append, ← List.cons_append, ← List.append_assoc] at h
    obtain ⟨hcalls, hlast⟩ := List.append_inj' h rfl
    rw [List.concat_eq_append, List.singleton_inj.mp hlast]
    exact .inr ⟨init, rfl, hcalls⟩

lemma atLineStart_outputOf : AtLineStart (outputOf encode calls) ↔
    ∀ before call between, calls = before ++ call :: between → Torn call.events →
      ¬ ∀ c ∈ between, taken c.events = [] := by
  induction calls using List.reverseRecOn with
  | nil => exact iff_of_true atLineStart_nil fun before call between h => by simp at h
  | append_singleton calls c ih =>
    have houtput : outputOf encode (calls ++ [c]) = outputOf encode calls ++ taken c.events := by
      simp [outputOf]
    rw [houtput]
    by_cases htaken : taken c.events = []
    · have hc : ¬ Torn c.events := by
        rw [not_torn_iff, htaken]
        exact atLineStart_nil
      rw [htaken, List.append_nil, ih]
      constructor
      · intro h before call between heq htorn hnone
        rcases concat_eq_append_cons heq with ⟨-, rfl⟩ | ⟨init, rfl, hcalls⟩
        · exact hc htorn
        · exact h before call init hcalls htorn (List.forall_mem_append.mp hnone).1
      · intro h before call between heq htorn hnone
        refine h before call (between ++ [c]) (by simp [heq]) htorn ?_
        exact List.forall_mem_append.mpr ⟨hnone, by simpa using htaken⟩
    · rw [atLineStart_append htaken, ← not_torn_iff]
      constructor
      · intro h before call between heq htorn hnone
        rcases concat_eq_append_cons heq with ⟨-, rfl⟩ | ⟨init, rfl, -⟩
        · exact h htorn
        · exact htaken (hnone c (by simp))
      · intro h htorn
        exact h calls c [] rfl htorn (List.forall_mem_nil _)

/-- **The lines of a run are whole exactly when the writer never goes on inside of one.** -/
theorem lineIntegrity_iff (hencode : Compact encode) (calls : List (SinkCall encode)) :
    LineIntegrity encode calls ↔ Unbroken encode calls := by
  constructor
  · intro h before torn between whole after heq htorn hnone hwhole
    obtain ⟨hstart, -⟩ := h (before ++ torn :: between) whole after heq (ok_iff_whole.mpr hwhole)
    exact atLineStart_outputOf.mp hstart before torn between rfl htorn hnone
  · intro h before call after heq hok
    have hwhole := ok_iff_whole.mp hok
    refine ⟨atLineStart_outputOf.mpr fun start torn between hbefore htorn hnone => ?_,
      newline_notMem_text hencode _, outputOf encode after, ?_⟩
    · exact h start torn between call after (by rw [heq, hbefore]) htorn hnone hwhole
    · rw [heq, outputOf_append, outputOf_cons, taken_of_whole hwhole]
      simp

end Runs

section Samples

/-- The pieces the JSON library writes for a string, and for a member of an object. -/
def stringPieces (s : String) : List String := ["\"", s, "\""]

def memberPieces (key : String) (value : List String) : List String :=
  stringPieces key ++ ":" :: value

/-- The pieces of the record of the examples: the context of a node that nobody cancelled. -/
def samplePieces : List String :=
  "\x7b" :: memberPieces "context" (
    "\x7b" :: memberPieces "cancellation" (
      "\x7b" :: memberPieces "state" (stringPieces "active") ++ ["\x7d"]) ++
    "," :: memberPieces "execution" (
      "\x7b" :: memberPieces "attempt" ["1"] ++
      "," :: memberPieces "execution_id" (stringPieces "run-1") ++ ["\x7d"]) ++
    "," :: memberPieces "node_id" (stringPieces "a") ++
    "," :: memberPieces "workflow_id" (stringPieces "flow") ++ ["\x7d"]) ++
  "," :: memberPieces "kind" (stringPieces "execution_context") ++
  "," :: memberPieces "record_type" (stringPieces "execution_context") ++ ["\x7d"]

/-- The writes the JSON library makes for the record of the examples. -/
def sampleEncode (_ : Json.Value) : List (List UInt8) :=
  samplePieces.map fun piece => piece.toList.map fun c => .ofNat c.toNat

lemma sampleEncode_compact : Compact sampleEncode := by
  have hpieces : ∀ bytes ∈ sampleEncode .null, newline ∉ bytes := by decide
  exact fun _ => hpieces

def sampleRecord : MetadataRecord := .executionContext (tokenContext .active)

lemma toWriter_written (chunks : List (List UInt8)) :
    Prog.Yields (toWriter chunks) (chunks.map fun bytes => ⟨.writeAll bytes, .written⟩)
      (.ok ()) := by
  induction chunks with
  | nil => exact .ret
  | cons bytes rest ih => exact .call ih

/-- The events of a call whose writes are all taken. -/
def wholeEvents (chunks : List (List UInt8)) : List SinkEvent :=
  ⟨.lockWriter, true⟩ :: (chunks.map fun bytes => ⟨.writeAll bytes, .written⟩) ++
    [⟨.writeAll [newline], .written⟩]

lemma record_written (encode : Json.Value → List (List UInt8)) (r : MetadataRecord) :
    Prog.Yields (record encode r) (wholeEvents (encode (metadataRecordToJsonValue r)))
      (.ok ()) := by
  rw [record, yields_lockWriter]
  refine ⟨true, _, rfl, (toWriter_written _).bind ?_⟩
  exact yields_writeAll.mpr ⟨.written, [], rfl, .ret⟩

def wholeCall : SinkCall sampleEncode where
  record := sampleRecord
  events := wholeEvents (sampleEncode .null)
  result := .ok ()
  yields := record_written sampleEncode sampleRecord

/-- The events of a call that fails when this much of the opening brace is written. -/
def failedEvents (n : ℕ) : List SinkEvent :=
  [⟨.lockWriter, true⟩, ⟨.writeAll [123], .failed n "no space left on device"⟩]

lemma toWriter_failed (bytes : List UInt8) (rest : List (List UInt8)) (n : ℕ) (source : String) :
    Prog.Yields (toWriter (bytes :: rest)) [⟨.writeAll bytes, .failed n source⟩]
      (.error source) := by
  rw [toWriter, yields_writeAll]
  exact ⟨.failed n source, [], rfl, .ret⟩

lemma record_failed (n : ℕ) : Prog.Yields (record sampleEncode sampleRecord) (failedEvents n)
    (.error (.metadata "failed to encode metadata JSONL record: no space left on device")) := by
  have hbrace : sampleEncode (metadataRecordToJsonValue sampleRecord) =
      [123] :: (sampleEncode .null).tail := by decide
  rw [record, yields_lockWriter]
  refine ⟨true, _, rfl, ?_⟩
  simp only [hbrace]
  exact (toWriter_failed [123] _ n "no space left on device").bind .ret

def failedCall (n : ℕ) : SinkCall sampleEncode where
  record := sampleRecord
  events := failedEvents n
  result := .error (.metadata
    "failed to encode metadata JSONL record: no space left on device")
  yields := record_failed n

/-- A call that fails before it has written anything, and one that leaves an opening brace. -/
def refusedCall : SinkCall sampleEncode := failedCall 0

def tornCall : SinkCall sampleEncode := failedCall 1

/-- **Lines are not always whole**: a record that is written in full after one that was not has
an opening brace before it on its line. -/
theorem not_lineIntegrity : ¬ ∀ encode, Compact encode →
    ∀ calls : List (SinkCall encode), LineIntegrity encode calls := by
  intro hall
  have hlines := hall sampleEncode sampleEncode_compact [tornCall, wholeCall]
  obtain ⟨hstart, -⟩ := hlines [tornCall] wholeCall [] rfl rfl
  have hbrace := hstart 123 rfl
  exact absurd hbrace (by decide)

lemma wholeCall_not_torn : ¬ Torn wholeCall.events := by
  rw [not_torn_iff, taken_of_whole (ok_iff_whole.mp rfl)]
  intro b hb
  rw [List.getLast?_concat] at hb
  exact (Option.some.inj hb).symm

/-- Records before and after a call that is refused are lines, and so are those before one that is
torn. -/
theorem lineIntegrity_iff_whole : Compact sampleEncode ∧
    LineIntegrity sampleEncode [wholeCall, refusedCall, wholeCall, tornCall] := by
  have hrefused : ¬ Torn refusedCall.events := not_torn_iff.mpr atLineStart_nil
  refine ⟨sampleEncode_compact, (lineIntegrity_iff sampleEncode_compact _).mpr ?_⟩
  intro before torn between whole after heq htorn
  rcases before with _ | ⟨first, _ | ⟨second, _ | ⟨third, before⟩⟩⟩
  · obtain rfl := (List.cons.inj heq).1
    exact absurd htorn wholeCall_not_torn
  · obtain rfl := (List.cons.inj (List.cons.inj heq).2).1
    exact absurd htorn hrefused
  · obtain rfl := (List.cons.inj (List.cons.inj (List.cons.inj heq).2).2).1
    exact absurd htorn wholeCall_not_torn
  · -- only the last call is torn
    have hlength := congrArg List.length heq
    simp at hlength
    omega

end Samples

end Pureflow.Core
