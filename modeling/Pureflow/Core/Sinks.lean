import Mathlib.Data.Int.CardIntervalMod
import Pureflow.Core.Jsonl
import Pureflow.Lib.Mutex

/-!
The tiered sink over a JSONL sink that writes to memory, used by many threads: the sink stack of a
run from the command line.

A call looks at the policy first, which for data counts it under a lock of its own, and then waits
for the writer's lock, if it is passed on. Between the two another call may overtake it.
-/

namespace Pureflow.Core

open Pureflow.Lib JsonlMetadataSink

/-- Cost tier for one metadata record. -/
inductive MetadataTier
  | control | data | highCostData
  deriving DecidableEq

/-- Policy used by a tiered metadata sink. -/
structure TieredMetadataPolicy where
  dataSampleRate : Option ℕ+
  recordHighCostData : Bool

namespace TieredMetadataPolicy

def recordData : TieredMetadataPolicy := ⟨some ⟨1, Nat.one_pos⟩, false⟩

def shouldRecordData (policy : TieredMetadataPolicy) (ordinal : ℕ) : Bool :=
  policy.dataSampleRate.any fun sampleRate => ordinal % sampleRate = 0

def shouldRecordHighCostData (policy : TieredMetadataPolicy) : Bool := policy.recordHighCostData

end TieredMetadataPolicy

/-- A call on the tiered sink; a plain one is of the control tier. -/
structure TieredCall where
  tier : MetadataTier
  record : MetadataRecord

namespace TieredMetadataSink

def usizeMax : ℕ := 2 ^ 64 - 1

/-- Whether a call is passed on, and how many data calls have been seen after it. -/
def shouldRecord (policy : TieredMetadataPolicy) (dataSeen : ℕ) : MetadataTier → Bool × ℕ
  | .control => (true, dataSeen)
  | .data => (policy.shouldRecordData dataSeen, min (dataSeen + 1) usizeMax)
  | .highCostData => (policy.shouldRecordHighCostData, dataSeen)

/-- A lock that is not poisoned, and a writer that takes everything. -/
def memory : Mutex.Device SinkOp (List UInt8) SinkOp.Answer
  | .lockWriter, output => (true, output)
  | .writeAll bytes, output => (.written, output ++ bytes)

/-- The writer, the thread that holds its lock and those that wait for it. -/
abbrev Inner (T : Type) :=
  Mutex.State T TieredCall SinkOp (List UInt8) SinkOp.Answer (Except PureflowError Unit)

structure State (T : Type) where
  dataSeen : ℕ
  inner : Inner T

/-- The threads' steps: a call up to where it waits for the writer, if it does, the lock of the
writer taken, a write, and the lock left. -/
inductive Event (T : Type)
  | recordWithTier (t : T) (call : TieredCall)
  | enter (t : T)
  | write
  | leave

def State.start (T : Type) : State T := ⟨0, .start []⟩

variable {T : Type} [DecidableEq T] (policy : TieredMetadataPolicy)
  (encode : Json.Value → List (List UInt8))

def innerStep (s : Inner T) (ev : Mutex.Event T TieredCall) : Option (Inner T) :=
  Mutex.step memory (fun call => JsonlMetadataSink.record encode call.record) s ev

def step (s : State T) : Event T → Option (State T)
  | .recordWithTier t call =>
    let (passed, dataSeen) := shouldRecord policy s.dataSeen call.tier
    if !s.inner.Free t then none
    else if passed then (innerStep encode s.inner (.ask t call)).map (State.mk dataSeen)
    else some ⟨dataSeen, s.inner⟩
  | .enter t => (innerStep encode s.inner (.enter t)).map (State.mk s.dataSeen)
  | .write => (innerStep encode s.inner .act).map (State.mk s.dataSeen)
  | .leave => (innerStep encode s.inner .leave).map (State.mk s.dataSeen)

/-- The calls that were made, in the order in which the policy was asked. -/
def calls (events : List (Event T)) : List (T × TieredCall) :=
  events.filterMap fun
    | .recordWithTier t call => some (t, call)
    | _ => none

/-- The data calls seen after some calls. -/
def seenAfter (seen : ℕ) (made : List (T × TieredCall)) : ℕ :=
  made.foldl (fun seen p => (shouldRecord policy seen p.2.tier).2) seen

/-- The calls that are passed on. -/
def passed (seen : ℕ) : List (T × TieredCall) → List (T × TieredCall)
  | [] => []
  | p :: rest =>
    (if (shouldRecord policy seen p.2.tier).1 then [p] else []) ++
      passed (shouldRecord policy seen p.2.tier).2 rest

section Passing

variable {policy} {seen : ℕ} {made more : List (T × TieredCall)}

omit [DecidableEq T] in
lemma passed_append : passed policy seen (made ++ more) =
    passed policy seen made ++ passed policy (seenAfter policy seen made) more := by
  induction made generalizing seen with
  | nil => rfl
  | cons p rest ih => simp [passed, seenAfter, ih]

end Passing

section Writing

variable {encode}

lemma run_toWriter (chunks : List (List UInt8)) (output : List UInt8) :
    Mutex.run memory (toWriter chunks) output = (.ok (), output ++ chunks.flatten) := by
  induction chunks generalizing output with
  | nil => simp [toWriter]
  | cons bytes rest ih =>
    calc Mutex.run memory (toWriter (bytes :: rest)) output
        = Mutex.run memory (toWriter rest) (output ++ bytes) := rfl
      _ = (.ok (), output ++ (bytes :: rest).flatten) := by
        rw [ih, List.flatten_cons, List.append_assoc]

/-- With the lock to itself, a call writes the line of its record and succeeds. -/
lemma run_record (r : MetadataRecord) (output : List UInt8) :
    Mutex.run memory (JsonlMetadataSink.record encode r) output =
      (.ok (), output ++ (text encode r ++ [newline])) := by
  have hlock : Mutex.run memory SinkM.lockWriter output = (true, output) := rfl
  have hwritten : Mutex.run memory (toWriter (encode (metadataRecordToJsonValue r))) output =
      (.ok (), output ++ text encode r) := run_toWriter _ output
  have hnewline : Mutex.run memory writeNewline (output ++ text encode r) =
      (.ok (), output ++ (text encode r ++ [newline])) := by
    rw [← List.append_assoc]
    rfl
  unfold JsonlMetadataSink.record
  rw [Mutex.run_bind, hlock]
  dsimp only
  rw [Mutex.run_bind, hwritten]
  exact hnewline

/-- The lines of the records of some calls. -/
def linesOf (encode : Json.Value → List (List UInt8)) (log : List (T × TieredCall)) : List UInt8 :=
  log.flatMap fun p => text encode p.2.record ++ [newline]

omit [DecidableEq T] in
lemma after_eq_lines (log : List (T × TieredCall)) (output : List UInt8) :
    Mutex.after memory (fun call : TieredCall => JsonlMetadataSink.record encode call.record) output
      log = output ++ linesOf encode log := by
  induction log generalizing output with
  | nil => simp [Mutex.after, linesOf]
  | cons p rest ih =>
    calc Mutex.after memory (fun call : TieredCall => JsonlMetadataSink.record encode call.record)
          output (p :: rest)
        = Mutex.after memory (fun call : TieredCall => JsonlMetadataSink.record encode call.record)
          (output ++ (text encode p.2.record ++ [newline])) rest := by
          rw [Mutex.after, List.foldl_cons, run_record]
          rfl
      _ = output ++ linesOf encode (p :: rest) := by
          rw [ih, linesOf, linesOf, List.flatMap_cons, List.append_assoc]

end Writing

section Steps

variable {policy encode} {events : List (Event T)} {s s' : State T}

omit [DecidableEq T] in
lemma calls_append (events more : List (Event T)) :
    calls (events ++ more) = calls events ++ calls more := List.filterMap_append

/-- The writer's lock has seen the calls that were passed on, those of each thread in order. -/
def Passes (policy : TieredMetadataPolicy) (encode : Json.Value → List (List UInt8))
    (events : List (Event T)) (s : State T) : Prop :=
  s.dataSeen = seenAfter policy 0 (calls events) ∧
  ∃ turns, Reaches (innerStep encode) (.start []) turns s.inner ∧
    ∀ t, Mutex.asked t turns = Mutex.servedOf t (passed policy 0 (calls events))

lemma passes_turn {ev : Event T} {turn : Mutex.Event T TieredCall} {inner : Inner T}
    (h : Passes policy encode events s) (hcalls : calls [ev] = [])
    (hasked : ∀ t, Mutex.asked t [turn] = []) (hstep : innerStep encode s.inner turn = some inner) :
    Passes policy encode (events ++ [ev]) ⟨s.dataSeen, inner⟩ := by
  obtain ⟨hseen, turns, hturns, hall⟩ := h
  refine ⟨?_, turns ++ [turn], hturns.concat hstep, fun t => ?_⟩
  · rw [calls_append, hcalls, List.append_nil, hseen]
  · rw [calls_append, hcalls, List.append_nil, Mutex.asked_append, hasked, List.append_nil, hall]

lemma passes_call {t : T} {call : TieredCall} (h : Passes policy encode events s)
    (hstep : step policy encode s (.recordWithTier t call) = some s') :
    Passes policy encode (events ++ [.recordWithTier t call]) s' := by
  obtain ⟨hseen, turns, hturns, hall⟩ := h
  have hcalls : calls (events ++ [.recordWithTier t call]) = calls events ++ [(t, call)] :=
    calls_append ..
  have hnext : seenAfter policy 0 (calls events ++ [(t, call)]) =
      (shouldRecord policy s.dataSeen call.tier).2 := by
    rw [hseen, seenAfter, seenAfter, List.foldl_append]
    rfl
  rw [step] at hstep
  dsimp only at hstep
  split_ifs at hstep with hfree hpassed
  · obtain ⟨inner, hinner, rfl⟩ := Option.map_eq_some_iff.mp hstep
    refine ⟨by rw [hcalls, hnext], turns ++ [.ask t call], hturns.concat hinner, fun u => ?_⟩
    rw [hcalls, Mutex.asked_append, hall, passed_append, Mutex.servedOf_append, ← hseen]
    by_cases htu : t = u
    · simp [passed, hpassed, Mutex.asked, Mutex.servedOf, htu]
    · simp [passed, hpassed, Mutex.asked, Mutex.servedOf, htu]
  · obtain rfl := Option.some.inj hstep
    refine ⟨by rw [hcalls, hnext], turns, hturns, fun u => ?_⟩
    rw [hcalls, hall, passed_append, Mutex.servedOf_append, ← hseen]
    simp [passed, hpassed, Mutex.servedOf]

lemma passes_step {ev : Event T} (h : Passes policy encode events s)
    (hstep : step policy encode s ev = some s') : Passes policy encode (events ++ [ev]) s' := by
  cases ev with
  | recordWithTier t call => exact passes_call h hstep
  | enter t =>
    obtain ⟨inner, hinner, rfl⟩ := Option.map_eq_some_iff.mp hstep
    exact passes_turn h rfl (fun _ => rfl) hinner
  | write =>
    obtain ⟨inner, hinner, rfl⟩ := Option.map_eq_some_iff.mp hstep
    exact passes_turn h rfl (fun _ => rfl) hinner
  | leave =>
    obtain ⟨inner, hinner, rfl⟩ := Option.map_eq_some_iff.mp hstep
    exact passes_turn h rfl (fun _ => rfl) hinner

end Steps

section Logs

variable {policy} {seen : ℕ} {made : List (T × TieredCall)}

/-- The calls of one tier. -/
def ofTier (tier : MetadataTier) (made : List (T × TieredCall)) : List (T × TieredCall) :=
  made.filter (·.2.tier = tier)

/-- The calls of one thread. -/
def ofThread (t : T) (made : List (T × TieredCall)) : List (T × TieredCall) :=
  made.filter (·.1 = t)

omit [DecidableEq T] in
lemma passed_sublist : (passed policy seen made).Sublist made := by
  induction made generalizing seen with
  | nil => exact .slnil
  | cons p rest ih =>
    rw [passed]
    split_ifs
    · exact ih.cons_cons p
    · exact ih.cons p

omit [DecidableEq T] in
lemma ofTier_cons (tier : MetadataTier) (p : T × TieredCall) (rest : List (T × TieredCall)) :
    ofTier tier (p :: rest) = if p.2.tier = tier then p :: ofTier tier rest else ofTier tier rest := by
  by_cases htier : p.2.tier = tier
  · simp [ofTier, htier]
  · simp [ofTier, htier]

omit [DecidableEq T] in
lemma ofTier_passed_other {tier : MetadataTier} {p : T × TieredCall} {rest : List (T × TieredCall)}
    (htier : p.2.tier ≠ tier) : ofTier tier (passed policy seen (p :: rest)) =
      ofTier tier (passed policy (shouldRecord policy seen p.2.tier).2 rest) := by
  rw [passed]
  split_ifs
  · rw [List.singleton_append, ofTier_cons, if_neg htier]
  · rw [List.nil_append]

omit [DecidableEq T] in
lemma ofTier_passed_same {tier : MetadataTier} {p : T × TieredCall} {rest : List (T × TieredCall)}
    (htier : p.2.tier = tier) : ofTier tier (passed policy seen (p :: rest)) =
      (if (shouldRecord policy seen tier).1 then [p] else []) ++
        ofTier tier (passed policy (shouldRecord policy seen tier).2 rest) := by
  subst htier
  rw [passed]
  split_ifs
  · rw [List.singleton_append, ofTier_cons, if_pos rfl, List.singleton_append]
  · rfl

omit [DecidableEq T] in
lemma passed_of_constant {tier : MetadataTier} {forwards : Bool}
    (h : ∀ seen, (shouldRecord policy seen tier).1 = forwards) :
    ofTier tier (passed policy seen made) = if forwards then ofTier tier made else [] := by
  induction made generalizing seen with
  | nil => simp [passed, ofTier]
  | cons p rest ih =>
    by_cases htier : p.2.tier = tier
    · rw [ofTier_passed_same htier, ih, h, ofTier_cons, if_pos htier]
      cases forwards with
      | true => rfl
      | false => rfl
    · rw [ofTier_passed_other htier, ih, ofTier_cons, if_neg htier]

omit [DecidableEq T] in
lemma passed_data (hseen : seen ≤ usizeMax) : (ofTier .data (passed policy seen made)).length =
    (List.range (ofTier .data made).length).countP
      fun i => policy.shouldRecordData (min (seen + i) usizeMax) := by
  induction made generalizing seen with
  | nil => rfl
  | cons p rest ih =>
    by_cases htier : p.2.tier = .data
    · -- the ordinals of the rest are those after this one
      have hnext : min (seen + 1) usizeMax ≤ usizeMax := min_le_right _ _
      have hshift (i : ℕ) : min (min (seen + 1) usizeMax + i) usizeMax =
          min (seen + (i + 1)) usizeMax := by
        omega
      have hdata : shouldRecord policy seen .data =
          (policy.shouldRecordData seen, min (seen + 1) usizeMax) := rfl
      have hfirst : min (seen + 0) usizeMax = seen := min_eq_left hseen
      rw [ofTier_passed_same htier, ofTier_cons, if_pos htier, List.length_append, hdata, ih hnext,
        List.length_cons, List.range_succ_eq_map, List.countP_cons, List.countP_map, hfirst]
      simp only [hshift, Function.comp_def]
      cases policy.shouldRecordData seen with
      | true => simp [add_comm]
      | false => simp
    · have hsame : (shouldRecord policy seen p.2.tier).2 = seen := by
        cases htier' : p.2.tier with
        | data => exact absurd htier' htier
        | control => rfl
        | highCostData => rfl
      rw [ofTier_passed_other htier, hsame, ih hseen, ofTier_cons, if_neg htier]

/-- One data call in as many as the rate says is passed on, the first of them included. -/
def sampled (policy : TieredMetadataPolicy) (n : ℕ) : ℕ :=
  policy.dataSampleRate.elim 0 fun rate => n / rate + if 0 < n % rate then 1 else 0

lemma countP_sampled {n : ℕ} (hn : n ≤ 2 ^ 64) : ((List.range n).countP
    fun i => policy.shouldRecordData (min (0 + i) usizeMax)) = sampled policy n := by
  have hsmall : (List.range n).countP (fun i => policy.shouldRecordData (min (0 + i) usizeMax)) =
      (List.range n).countP policy.shouldRecordData := by
    refine List.countP_congr fun i hi => ?_
    have hlt : i < n := List.mem_range.mp hi
    rw [show min (0 + i) usizeMax = i by unfold usizeMax; omega]
  rw [hsmall, sampled]
  cases hrate : policy.dataSampleRate with
  | none =>
    have hnever (i : ℕ) : policy.shouldRecordData i = false := by
      simp [TieredMetadataPolicy.shouldRecordData, hrate]
    simp [hnever]
  | some rate =>
    have hordinal : ∀ i ∈ List.range n,
        policy.shouldRecordData i = true ↔ decide (i ≡ 0 [MOD rate]) = true := by
      intro i _
      rw [decide_eq_true_iff, Nat.ModEq, Nat.zero_mod]
      simp [TieredMetadataPolicy.shouldRecordData, hrate]
    calc (List.range n).countP policy.shouldRecordData
        = n.count (· ≡ 0 [MOD rate]) := List.countP_congr hordinal
      _ = n / rate + if 0 < n % rate then 1 else 0 := by
        rw [Nat.count_modEq_card n rate.pos 0, Nat.zero_mod]

end Logs

section Results

variable {policy encode}

lemma ofThread_eq (t : T) (log : List (T × TieredCall)) :
    ofThread t log = (Mutex.servedOf t log).map (t, ·) := by
  induction log with
  | nil => rfl
  | cons p rest ih =>
    obtain ⟨u, call⟩ := p
    by_cases htu : u = t
    · subst htu
      simpa [ofThread, Mutex.servedOf] using ih
    · simpa [ofThread, Mutex.servedOf, htu] using ih

lemma perm_of_threads {log log' : List (T × TieredCall)}
    (h : ∀ t, ofThread t log = ofThread t log') : log.Perm log' := by
  classical
  refine List.perm_iff_count.mpr fun p => ?_
  have hcount (made : List (T × TieredCall)) : made.count p = (ofThread p.1 made).count p :=
    (List.count_filter (by simp)).symm
  rw [hcount log, hcount log', h]

/-- What the log of some calls is: those of each thread in order, the control calls complete, the
calls with high-cost data complete or none, and as many data calls as are sampled. -/
structure LogOf (policy : TieredMetadataPolicy) (made log : List (T × TieredCall)) : Prop where
  order : ∀ t, (ofThread t log).Sublist (ofThread t made)
  control : ∀ t, ofTier .control (ofThread t log) = ofTier .control (ofThread t made)
  highCost : ∀ t, ofTier .highCostData (ofThread t log) =
    if policy.recordHighCostData then ofTier .highCostData (ofThread t made) else []
  data : (ofTier .data made).length ≤ 2 ^ 64 →
    (ofTier .data log).length = sampled policy (ofTier .data made).length

lemma ofTier_ofThread (tier : MetadataTier) (t : T) (made : List (T × TieredCall)) :
    ofTier tier (ofThread t made) = ofThread t (ofTier tier made) := by
  simp [ofTier, ofThread, List.filter_filter, Bool.and_comm]

lemma logOf_of_threads {made log : List (T × TieredCall)}
    (h : ∀ t, ofThread t log = ofThread t (passed policy 0 made)) : LogOf policy made log := by
  refine ⟨fun t => ?_, fun t => ?_, fun t => ?_, fun hn => ?_⟩
  · rw [h]
    exact passed_sublist.filter _
  · rw [h, ofTier_ofThread, ofTier_ofThread, passed_of_constant fun _ => rfl, if_pos rfl]
  · have hpassed : ofTier .highCostData (passed policy 0 made) =
        if policy.recordHighCostData then ofTier .highCostData made else [] :=
      passed_of_constant fun _ => rfl
    rw [h, ofTier_ofThread, ofTier_ofThread, hpassed]
    split_ifs
    · rfl
    · rfl
  · rw [← countP_sampled hn, ← passed_data (Nat.zero_le _)]
    exact ((perm_of_threads h).filter _).length_eq

omit [DecidableEq T] in
lemma count_linesOf (hencode : Compact encode) (log : List (T × TieredCall)) :
    (linesOf encode log).count newline = log.length := by
  induction log with
  | nil => rfl
  | cons p rest ih =>
    have htext : (text encode p.2.record).count newline = 0 :=
      List.count_eq_zero.mpr (newline_notMem_text hencode _)
    rw [linesOf] at ih
    rw [linesOf, List.flatMap_cons, List.count_append, List.count_append, htext, ih,
      List.length_cons]
    simp [add_comm]

/-- **The log of a run is faithful**, whatever the interleaving of the threads that record: once
they are all out of their calls the output is whole lines, one for each call that is passed on, and
those of each thread in its order. -/
theorem log_is_faithful (policy : TieredMetadataPolicy) (encode : Json.Value → List (List UInt8))
    (hencode : Compact encode) {events : List (Event T)} {s : State T}
    (hrun : Reaches (step policy encode) (.start T) events s) (hfree : ∀ t, s.inner.Free t) :
    ∃ log, LogOf policy (calls events) log ∧ s.inner.resource = linesOf encode log ∧
      s.inner.resource.count newline = log.length := by
  have hpasses : Passes policy encode events s :=
    hrun.invariant ⟨rfl, [], Reaches.nil.mpr rfl, fun _ => rfl⟩ fun _ _ _ _ => passes_step
  obtain ⟨-, turns, hturns, hasked⟩ := hpasses
  obtain ⟨log, hserves, hserved⟩ := Mutex.serial_of_reaches hturns
  have hnone : s.inner.holder = none := by
    cases hholder : s.inner.holder with
    | none => rfl
    | some h => exact absurd rfl ((hfree h.thread).2 h hholder)
  have hlines : s.inner.resource = linesOf encode log :=
    (hserves.free hnone).trans (after_eq_lines log [])
  refine ⟨log, logOf_of_threads fun t => ?_, hlines, hlines ▸ count_linesOf hencode log⟩
  have hthread : Mutex.servedOf t log = Mutex.servedOf t (passed policy 0 (calls events)) := by
    rw [← hasked, hserved, (hfree t).1, Option.toList_none, List.append_nil]
  rw [ofThread_eq, ofThread_eq, hthread]

/-- Two threads: the second one makes a call that is not passed on and one that waits for the
lock while the first one writes. -/
def sampleTurns : List (Event Bool) :=
  [.recordWithTier true ⟨.control, sampleRecord⟩, .enter true, .write,
    .recordWithTier false ⟨.highCostData, sampleRecord⟩, .write,
    .recordWithTier false ⟨.data, sampleRecord⟩] ++
  List.replicate samplePieces.length .write ++ [.leave, .enter false] ++
  List.replicate (samplePieces.length + 2) .write ++ [.leave]

theorem log_is_faithful_sample :
    ∃ s, Reaches (step .recordData sampleEncode) (.start Bool) sampleTurns s ∧
      ∃ log, LogOf .recordData (calls sampleTurns) log ∧
        s.inner.resource = linesOf sampleEncode log ∧
        s.inner.resource.count newline = log.length := by
  have hall : (sampleTurns.foldlM (step .recordData sampleEncode) (.start Bool)).any
      fun s => ∀ t, s.inner.Free t := by decide +kernel
  obtain ⟨s, hrun, hfree⟩ := (Option.any_eq_true _ _).mp hall
  exact ⟨s, hrun, log_is_faithful _ _ sampleEncode_compact hrun (of_decide_eq_true hfree)⟩

end Results

end TieredMetadataSink

end Pureflow.Core
