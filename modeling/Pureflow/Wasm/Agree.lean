import Pureflow.Wasm.Arena

/-!
Native and guest evaluation agree through the wire encoding.

The encoded rule set and context lower to records that present the native ones; over such
records the guest's loops follow the native loops rule by rule; and what the host decodes from
the guest's decision is the native decision, less the descriptions the interface leaves out.
-/

namespace Pureflow.Wasm

open Std Pureflow.Types Pureflow.Core Pureflow.Lib Pureflow.Rules

/-- The guest's view of an action. -/
def ofAction : Rules.RuleAction → Wit.RuleAction
  | .route port => .route port.value
  | .drop => .drop
  | .deadLetter reason => .deadLetter reason
  | .tag key value => .tag (ofEntry (key, value))
  | .halt message => .halt message

/-- The guest's view of a strategy. -/
def ofStrategy : Rules.EvaluationStrategy → Wit.EvaluationStrategy
  | .firstMatch => .firstMatch
  | .allMatches => .allMatches
  | .score => .score

/-- The guest's view of a recorded surface. -/
def ofSurfaceRecord : ConditionSurfaceRecord → Wit.ConditionSurface
  | .payload => .payload
  | .tag => .tag
  | .provenance => .provenance
  | .executionContext => .executionContext
  | .combinator => .combinator
  | .constant => .constant

/-- The guest's view of a trace, without the description. -/
def ofTrace (trace : Core.ConditionTrace) : Wit.ConditionTrace :=
  ⟨trace.ruleId, ofSurfaceRecord trace.surface, trace.matched⟩

/-- The guest's view of a decision. -/
def ofDecision (d : Rules.RuleDecision) : Wit.RuleDecision :=
  ⟨ofAction d.action, d.matchedRule, d.tagsApplied.map ofEntry, d.conditionsEvaluated.map ofTrace⟩

section Lowering

@[simp] lemma lowerAction_actionToVal (a : Rules.RuleAction) :
    Wit.lowerAction (actionToVal a) = some (ofAction a) := by
  cases a <;> simp [actionToVal, Wit.lowerAction, Wit.lowerString, ofAction, toString,
    Identifier.asStr]

@[simp] lemma lowerStrategy_strategyToVal (s : Rules.EvaluationStrategy) :
    Wit.lowerStrategy (strategyToVal s) = some (ofStrategy s) := by
  cases s <;> rfl

/-- A guest rule that presents a native one: its condition can be read at the root. -/
structure Presents (w : Wit.Rule) (r : Rules.Rule) : Prop where
  id : w.id = r.id
  action : w.action = ofAction r.action
  reads : Reads w.condition.nodes r.condition w.condition.root
  length : w.condition.nodes.length = r.condition.nodeCount

lemma lowerRule_ruleToVal {r : Rules.Rule} (h : r.condition.nodeCount < 2 ^ 32) :
    ∃ v w, ruleToVal r = .ok v ∧ Wit.lowerRule v = some w ∧ Presents w r := by
  have hnil : ([] : List Val).mapM Wit.lowerNode = some [] := rfl
  obtain ⟨new, hlen, hlow, -, hreads⟩ := pushes r.condition hnil (by simp; omega)
  have htree : Wit.lowerTree (conditionTreeToVal r.condition) =
      some ⟨new, (pushCondition r.condition []).1⟩ := by
    simp [conditionTreeToVal, Wit.lowerTree, Wit.lowerList, Wit.lowerU32, hlow]
  refine ⟨_, ⟨r.id, ⟨new, (pushCondition r.condition []).1⟩, ofAction r.action, r.priority,
    r.description⟩, rfl, ?_, ⟨rfl, rfl, hreads, hlen⟩⟩
  simp [Wit.lowerRule, Wit.lowerString, Wit.lowerU32, htree]

lemma lowerRules_rulesToVal {rules : List Rules.Rule}
    (h : ∀ r ∈ rules, r.condition.nodeCount < 2 ^ 32) :
    ∃ vs ws, rules.mapM ruleToVal = .ok vs ∧ vs.mapM Wit.lowerRule = some ws ∧
      List.Forall₂ Presents ws rules := by
  induction rules with
  | nil => exact ⟨[], [], rfl, rfl, .nil⟩
  | cons r rest ih =>
    obtain ⟨v, w, hv, hw, hpres⟩ := lowerRule_ruleToVal (h r (by simp))
    obtain ⟨vs, ws, hvs, hws, hrest⟩ := ih fun s hs => h s (by simp [hs])
    exact ⟨v :: vs, w :: ws, by simp [hv, hvs], by simp [hw, hws], .cons hpres hrest⟩

lemma lowerRuleSet_ruleSetToVal {ruleSet : Rules.RuleSet}
    (h : ∀ r ∈ ruleSet.rules, r.condition.nodeCount < 2 ^ 32) :
    ∃ v ws, ruleSetToVal ruleSet = .ok v ∧ List.Forall₂ Presents ws ruleSet.rules ∧
      Wit.lowerRuleSet v = some ⟨ruleSet.id, ofStrategy ruleSet.strategy, ws,
        ofAction ruleSet.defaultAction, ruleSet.traceConditions⟩ := by
  obtain ⟨vs, ws, hvs, hws, hpres⟩ := lowerRules_rulesToVal h
  refine ⟨_, ws, by simp [ruleSetToVal, hvs]; rfl, hpres, ?_⟩
  simp [Wit.lowerRuleSet, Wit.lowerString, Wit.lowerList, Wit.lowerBool, hws]

@[simp] lemma lowerList_scalarEntriesToVal (entries : ExtTreeMap String Rules.ScalarValue) :
    Wit.lowerList Wit.lowerEntry (.list (scalarEntriesToVal entries)) =
      some (entries.toList.map ofEntry) :=
  lowerList_map (fun _ => lowerEntry_scalarEntryToVal _ _) _

lemma tagValue_entries (entries : ExtTreeMap String Rules.ScalarValue) (key : String) :
    Guest.tagValue (entries.toList.map ofEntry) key = entries[key]?.map ofScalar := by
  have hfind : (entries.toList.map ofEntry).find? (·.key == key) =
      (entries.toList.find? (·.1 == key)).map ofEntry := by
    rw [List.find?_map]
    rfl
  rw [Guest.tagValue, hfind]
  cases h : entries.toList.find? (·.1 == key) with
  | none =>
    have hmem (v : Rules.ScalarValue) : (key, v) ∉ entries.toList := fun hv => by
      simpa using List.find?_eq_none.mp h _ hv
    have hnone : entries[key]? = none :=
      Option.eq_none_iff_forall_ne_some.mpr fun v hv =>
        hmem v (ExtTreeMap.mem_toList_iff_getElem?_eq_some.mpr hv)
    rw [hnone]
    rfl
  | some e =>
    obtain ⟨k, v⟩ := e
    have hk : k = key := by simpa using List.find?_some h
    subst hk
    rw [ExtTreeMap.mem_toList_iff_getElem?_eq_some.mp (List.mem_of_find?_eq_some h)]
    rfl

/-- The guest's view of a native context, with the payload it is given. -/
def ofContext (payload : Wit.PacketPayload) (context : Rules.EvalContext) : Wit.EvalContext where
  payload := payload
  tags := context.tags.toList.map ofEntry
  sourceNode := context.sourceNode.map (·.value)
  arrivalPort := context.arrivalPort.map (·.value)
  hopCount := context.hopCount
  workflowId := context.workflowId.value
  executionMetadata := context.executionMetadata.toList.map ofEntry

lemma mirrors_ofContext (payload : Wit.PacketPayload) (context : Rules.EvalContext) :
    Mirrors (ofContext payload context) context where
  tags := tagValue_entries context.tags
  sourceNode := rfl
  arrivalPort := rfl
  hopCount := rfl
  workflowId := rfl
  executionMetadata := tagValue_entries context.executionMetadata

lemma lowerOption_identifier {kind : IdentifierKind} (o : Option (Identifier kind)) :
    Wit.lowerOption Wit.lowerString (.option (o.map fun i => .string i.value)) =
      some (o.map (·.value)) := by
  cases o <;> rfl

lemma lowerPayload_payloadToVal {json : JsonText} {payload : PacketPayload}
    (h : json.Faithful payload) :
    ∃ v p, payloadToVal json.toString payload = .ok v ∧ Wit.lowerPayload v = some p ∧
      Guest.parsePayload json.fromStr p = guestPayload payload := by
  cases payload with
  | bytes bytes =>
    have hbytes := lowerList_map (show ∀ n, Wit.lowerU8 (.u8 n) = some (id n) from fun _ => rfl)
      bytes
    exact ⟨_, .bytes bytes, rfl, by simp [Wit.lowerPayload, hbytes], rfl⟩
  | control value =>
    obtain ⟨text, hto, hfrom⟩ := h
    exact ⟨_, .control text, by simp [payloadToVal, hto]; rfl, rfl, hfrom⟩

lemma lowerContext_evalContextToVal {json : JsonText} {payload : PacketPayload}
    (h : json.Faithful payload) (context : Rules.EvalContext) :
    ∃ v p, evalContextToVal json.toString (.ofNative payload context) = .ok v ∧
      Wit.lowerContext v = some (ofContext p context) ∧
      Guest.parsePayload json.fromStr p = guestPayload payload := by
  obtain ⟨v, p, hv, hlow, hparse⟩ := lowerPayload_payloadToVal h
  refine ⟨_, p, by simp [evalContextToVal, HostEvalContext.ofNative, hv]; rfl, ?_, hparse⟩
  simp [Wit.lowerContext, hlow, lowerOption_identifier, Wit.lowerU32, Wit.lowerString, ofContext,
    toString, Identifier.asStr, Function.comp_def]

end Lowering

section Deciding

variable {payload : PacketPayload} {context : Rules.EvalContext} {g : Wit.EvalContext}
  {w : Wit.Rule} {r : Rules.Rule}

lemma evalRule_eq (hg : Mirrors g context) (h : Presents w r) :
    Guest.evalRule w (guestPayload payload) g =
      some (evalCondition payload context r.condition) :=
  evalNode_of_reads hg h.reads (by rw [h.length]; omega)

lemma traceOf_eq (h : Presents w r) (matched : Bool) :
    Guest.traceOf w matched = ofTrace (conditionTrace r r.condition matched) := by
  obtain ⟨n, hn, hsurface⟩ := surface_of_reads h.reads
  have hrecord : ofSurface r.condition.surface =
      ofSurfaceRecord (surfaceToRecord r.condition.surface) := by
    cases r.condition.surface <;> rfl
  simp [Guest.traceOf, hn, hsurface, hrecord, ofTrace, conditionTrace, h.id]

lemma isTerminal_ofAction (a : Rules.RuleAction) : Guest.isTerminal (ofAction a) = a.isTerminal := by
  cases a <;> rfl

lemma pushTag_eq (h : Presents w r) (tags : List (String × Rules.ScalarValue)) :
    Guest.pushTag w.action (tags.map ofEntry) = (applyTerminalOrTag r tags).map ofEntry := by
  rw [h.action]
  cases ha : r.action <;> simp [Guest.pushTag, applyTerminalOrTag, ofAction, ha]

variable {ruleSet : Rules.RuleSet} {gs : Wit.RuleSet}

lemma pushTrace_eq (htrace : gs.traceConditions = ruleSet.traceConditions) (h : Presents w r)
    (traces : List Core.ConditionTrace) (matched : Bool) :
    Guest.pushTrace gs.traceConditions (traces.map ofTrace) w matched =
      (ruleSet.pushTrace traces r matched).map ofTrace := by
  rw [Guest.pushTrace, RuleSet.pushTrace, htrace, traceOf_eq h]
  cases ruleSet.traceConditions <;> simp

lemma firstMatch_eq (hg : Mirrors g context) (htrace : gs.traceConditions = ruleSet.traceConditions)
    (hdefault : gs.defaultAction = ofAction ruleSet.defaultAction) {ws : List Wit.Rule}
    {rs : List Rules.Rule} (h : List.Forall₂ Presents ws rs) (traces : List Core.ConditionTrace)
    (tags : List (String × Rules.ScalarValue)) :
    Guest.firstMatch gs (guestPayload payload) g ws (traces.map ofTrace) (tags.map ofEntry) =
      some (ofDecision (evaluateFirstMatch.go ruleSet payload context rs traces tags)) := by
  induction h generalizing traces tags with
  | nil => simp [Guest.firstMatch, Guest.defaultDecision, hdefault, evaluateFirstMatch.go, ofDecision]
  | @cons w r ws rs hpres _ ih =>
    simp only [Guest.firstMatch, evalRule_eq hg hpres, evaluateFirstMatch.go,
      pushTrace_eq htrace hpres, pushTag_eq hpres, Option.bind_eq_bind, Option.bind_some]
    rw [hpres.action, isTerminal_ofAction, hpres.id]
    split
    · split
      · rfl
      · exact ih _ _
    · exact ih _ _

lemma allMatches_eq (hg : Mirrors g context) (htrace : gs.traceConditions = ruleSet.traceConditions)
    (hdefault : gs.defaultAction = ofAction ruleSet.defaultAction) {ws : List Wit.Rule}
    {rs : List Rules.Rule} (h : List.Forall₂ Presents ws rs) (traces : List Core.ConditionTrace)
    (tags : List (String × Rules.ScalarValue)) :
    Guest.allMatches gs (guestPayload payload) g ws (traces.map ofTrace) (tags.map ofEntry) =
      some (ofDecision (evaluateAllMatches.go ruleSet payload context rs traces tags)) := by
  induction h generalizing traces tags with
  | nil =>
    simp [Guest.allMatches, Guest.defaultDecision, hdefault, evaluateAllMatches.go, ofDecision]
  | @cons w r ws rs hpres _ ih =>
    simp only [Guest.allMatches, evalRule_eq hg hpres, evaluateAllMatches.go,
      pushTrace_eq htrace hpres, pushTag_eq hpres, Option.bind_eq_bind, Option.bind_some]
    split
    · exact ih _ _
    · exact ih _ _

lemma score_eq (hg : Mirrors g context) (htrace : gs.traceConditions = ruleSet.traceConditions)
    (hdefault : gs.defaultAction = ofAction ruleSet.defaultAction) {ws : List Wit.Rule}
    {rs : List Rules.Rule} (h : List.Forall₂ Presents ws rs) (traces : List Core.ConditionTrace)
    (tags : List (String × Rules.ScalarValue)) {best : Option Wit.Rule}
    {bestMatch : Option Rules.Rule} (hbest : Option.Rel Presents best bestMatch) :
    Guest.score gs (guestPayload payload) g ws (traces.map ofTrace) (tags.map ofEntry) best =
      some (ofDecision (evaluateScore.go ruleSet payload context rs traces tags bestMatch)) := by
  induction h generalizing traces tags best bestMatch with
  | nil =>
    cases hbest with
    | none => simp [Guest.score, Guest.defaultDecision, hdefault, evaluateScore.go, ofDecision]
    | some hpres => simp [Guest.score, evaluateScore.go, ofDecision, hpres.id, hpres.action]
  | @cons w r ws rs hpres _ ih =>
    have hisNone : best.isNone = bestMatch.isNone := by cases hbest <;> rfl
    simp only [Guest.score, evalRule_eq hg hpres, evaluateScore.go, pushTrace_eq htrace hpres,
      pushTag_eq hpres, Option.bind_eq_bind, Option.bind_some]
    rw [hpres.action, isTerminal_ofAction, hisNone]
    split
    · split
      · exact ih _ _ (.some hpres)
      · exact ih _ _ hbest
    · exact ih _ _ hbest

/-- **The guest decides as the native evaluator does** on records that present its inputs. -/
theorem guest_evaluate_eq {json : JsonText} {ws : List Wit.Rule} {p : Wit.PacketPayload}
    (hrules : List.Forall₂ Presents ws ruleSet.rules) (packet : PortPacket)
    (hp : Guest.parsePayload json.fromStr p = guestPayload packet.payload) :
    ∃ d, evaluate ruleSet packet context = .ok d ∧
      Guest.evaluate json.fromStr ⟨ruleSet.id, ofStrategy ruleSet.strategy, ws,
        ofAction ruleSet.defaultAction, ruleSet.traceConditions⟩ (ofContext p context) =
      some (.ok (ofDecision d)) := by
  have hg := mirrors_ofContext p context
  simp only [evaluate, Guest.evaluate, hp, ofContext]
  cases ruleSet.strategy with
  | firstMatch => exact ⟨_, rfl, congrArg _ (firstMatch_eq hg rfl rfl hrules [] [])⟩
  | allMatches => exact ⟨_, rfl, congrArg _ (allMatches_eq hg rfl rfl hrules [] [])⟩
  | score => exact ⟨_, rfl, congrArg _ (score_eq hg rfl rfl hrules [] [] .none)⟩

end Deciding

section Decoding

/-- A trace less its free-text description. -/
def withoutDescription (trace : Core.ConditionTrace) : Core.ConditionTrace :=
  { trace with conditionDescription := "" }

lemma scalarFromVal_lift (s : Rules.ScalarValue) :
    scalarFromVal (Wit.liftScalar (ofScalar s)) = .ok s := by
  cases s <;> rfl

lemma scalarEntryFromVal_lift (entry : String × Rules.ScalarValue) :
    scalarEntryFromVal (Wit.liftEntry (ofEntry entry)) = .ok entry := by
  obtain ⟨key, value⟩ := entry
  simp [scalarEntryFromVal, Wit.liftEntry, ofEntry, recordFields, requiredStringField,
    requiredField, List.lookup, scalarFromVal_lift]

lemma actionFromVal_lift (a : Rules.RuleAction) :
    actionFromVal (Wit.liftAction (ofAction a)) = .ok a := by
  cases a with
  | route port => simp [actionFromVal, Wit.liftAction, ofAction, asVariant, asString,
      Identifier.new_value]
  | tag key value => simp [actionFromVal, Wit.liftAction, ofAction, asVariant,
      scalarEntryFromVal_lift]
  | _ => rfl

lemma conditionTraceFromVal_lift (trace : Core.ConditionTrace) :
    conditionTraceFromVal (Wit.liftTrace (ofTrace trace)) = .ok (withoutDescription trace) := by
  have hsurface : surfaceFromVal (Wit.liftSurface (ofSurfaceRecord trace.surface)) =
      .ok trace.surface := by
    cases trace.surface <;> rfl
  simp [conditionTraceFromVal, Wit.liftTrace, ofTrace, recordFields, requiredStringField,
    requiredField, List.lookup, hsurface, withoutDescription, pure, Except.pure]

lemma decisionFromVal_lift (d : Rules.RuleDecision) :
    decisionFromVal (Wit.liftDecision (ofDecision d)) =
      .ok { d with conditionsEvaluated := d.conditionsEvaluated.map withoutDescription } := by
  have hmatched : optionalString (.option (d.matchedRule.map .string)) = .ok d.matchedRule := by
    cases d.matchedRule <;> rfl
  have htags := Result.mapM_map_of_decodes scalarEntryFromVal_lift d.tagsApplied
  have htraces := Result.mapM_map_of_decodes conditionTraceFromVal_lift d.conditionsEvaluated
  simp [decisionFromVal, Wit.liftDecision, ofDecision, recordFields, requiredListField,
    requiredField, List.lookup, actionFromVal_lift, hmatched, Function.comp_def, htags, htraces,
    pure, Except.pure]

end Decoding

/-- **Native and guest evaluation agree**: for condition trees the arena's indices can count
and a payload whose JSON text parses back, the guest answers, and what the host decodes is the
native action, matched rule and tags, with the native traces less their descriptions. -/
theorem evaluateInGuest_eq_evaluate (json : JsonText) (ruleSet : Rules.RuleSet)
    (packet : PortPacket) (context : Rules.EvalContext)
    (hcount : ∀ rule ∈ ruleSet.rules, rule.condition.nodeCount < 2 ^ 32)
    (hjson : json.Faithful packet.payload) :
    ∃ native wasm, evaluate ruleSet packet context = .ok native ∧
      evaluateInGuest json ruleSet (.ofNative packet.payload context) = some (.ok wasm) ∧
      wasm.action = native.action ∧ wasm.matchedRule = native.matchedRule ∧
      wasm.tagsApplied = native.tagsApplied ∧
      wasm.conditionsEvaluated = native.conditionsEvaluated.map withoutDescription := by
  obtain ⟨rv, ws, hrv, hpres, hrlow⟩ := lowerRuleSet_ruleSetToVal hcount
  obtain ⟨cv, p, hcv, hclow, hparse⟩ := lowerContext_evalContextToVal hjson context
  obtain ⟨native, hnative, hguest⟩ := guest_evaluate_eq hpres packet hparse
  refine ⟨native, { native with
    conditionsEvaluated := native.conditionsEvaluated.map withoutDescription }, hnative, ?_,
    rfl, rfl, rfl, rfl⟩
  simp [evaluateInGuest, hrv, hcv, hrlow, hclow, hguest, Wit.liftResult, decisionFromResultVal,
    decisionFromVal_lift]

section Sample

/-- A control payload with one field. -/
def samplePayload : Json.Value := .object [("tier", .string "gold")]

/-- The JSON library on the sample payload and its text. -/
def sampleJson : JsonText where
  toString _ := .ok "\x7b\"tier\":\"gold\"\x7d"
  fromStr text := if text = "\x7b\"tier\":\"gold\"\x7d" then some samplePayload else none

def samplePacket : PortPacket where
  metadata :=
    { messageId := ⟨"m1", message_m1_valid⟩
      workflowId := ⟨"flow", workflow_flow_valid⟩
      execution := .firstAttempt ⟨"run-1", execution_run_valid⟩
      route := ⟨none, ⟨⟨"router", node_router_valid⟩, ⟨"in", port_in_valid⟩⟩⟩ }
  payload := .control samplePayload

def sampleContext : Rules.EvalContext where
  tags := ∅
  sourceNode := none
  arrivalPort := some ⟨"in", port_in_valid⟩
  hopCount := 0
  workflowId := ⟨"flow", workflow_flow_valid⟩
  executionMetadata := ∅

/-- One rule with a combinator, a payload leaf and a provenance leaf. -/
def sampleRules : Rules.RuleSet where
  id := "tiers"
  strategy := .firstMatch
  rules :=
    [{ id := "gold"
       condition := .and [.not (.fieldEq ⟨"tier"⟩ .null), .arrivedOnPort ⟨"in", port_in_valid⟩]
       action := .route ⟨"fast", by decide⟩
       priority := 0
       description := "" }]
  defaultAction := .drop
  traceConditions := true

theorem evaluateInGuest_sample :
    (∀ rule ∈ sampleRules.rules, rule.condition.nodeCount < 2 ^ 32) ∧
      sampleJson.Faithful samplePacket.payload ∧
      ∃ native wasm, evaluate sampleRules samplePacket sampleContext = .ok native ∧
        evaluateInGuest sampleJson sampleRules (.ofNative samplePacket.payload sampleContext) =
          some (.ok wasm) ∧
        wasm.action = native.action ∧ wasm.matchedRule = native.matchedRule ∧
        wasm.tagsApplied = native.tagsApplied ∧
        wasm.conditionsEvaluated = native.conditionsEvaluated.map withoutDescription := by
  have hcount : ∀ rule ∈ sampleRules.rules, rule.condition.nodeCount < 2 ^ 32 := by
    simp [sampleRules, Condition.nodeCount, Condition.nodeCounts]
  have hjson : sampleJson.Faithful samplePacket.payload := ⟨_, rfl, rfl⟩
  exact ⟨hcount, hjson,
    evaluateInGuest_eq_evaluate sampleJson sampleRules samplePacket sampleContext hcount hjson⟩

end Sample

end Pureflow.Wasm
