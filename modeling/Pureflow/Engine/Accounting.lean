import Pureflow.Engine.Collect

/-!
What the summary of a run says of the results observed, with a sink that never fails.
-/

namespace Pureflow.Engine

open Pureflow.Types Pureflow.Core Pureflow.Lib

variable {context : WorkflowCollectionContext} {n : SliceLen} {events : List Event} {run : Run}

/-- The loop is here after the events. -/
abbrev Run.Reached (context : WorkflowCollectionContext) (n : SliceLen) (events : List Event)
    (run : Run) : Prop :=
  Reaches (Run.next context) (.start n) events run

/-- The error that an event shows, if any. -/
def errorAt (context : WorkflowCollectionContext) (run : Run) (ev : Event) :
    Option PureflowError :=
  match ev.arrival, context.policy.watchdogPolicy with
  | .result _ (.error err), _ => some err
  | .deadline, .deadlock watchdog => some (deadlockError context watchdog run.summary)
  | _, _ => none

/-- The errors that events show from a state on, in the order they are observed. -/
def observedErrors (context : WorkflowCollectionContext) : Run → List Event → List PureflowError
  | _, [] => []
  | run, ev :: rest =>
    (errorAt context run ev).toList ++
      (run.next context ev).elim [] fun run' => observedErrors context run' rest

section Summary

variable {s : WorkflowRunSummary} {err : PureflowError}

lemma noteFirstError_eq (s : WorkflowRunSummary) (err : PureflowError) :
    s.noteFirstError err =
      { s with
        terminalState := s.firstError.elim (WorkflowRunSummary.stateOf err) fun _ => s.terminalState
        firstError := s.firstError.or (some err) } := by
  unfold WorkflowRunSummary.noteFirstError
  split
  · next h => cases s; cases h; rfl
  · next h => cases s; cases h; rfl

/-- A node that fails is counted once, as failed or as cancelled. -/
lemma recordError_counts (s : WorkflowRunSummary) (err : PureflowError)
    (hnodes : s.failedNodeCount + s.cancelledNodeCount < usizeMax)
    (herrors : s.errorCount < usizeMax) :
    (s.recordError err).failedNodeCount + (s.recordError err).cancelledNodeCount =
        s.failedNodeCount + s.cancelledNodeCount + 1 ∧
      (s.recordError err).errorCount = s.errorCount + 1 := by
  have hfailed : saturatingAdd s.failedNodeCount 1 = s.failedNodeCount + 1 :=
    saturatingAdd_eq (by omega)
  have hcancelled : saturatingAdd s.cancelledNodeCount 1 = s.cancelledNodeCount + 1 :=
    saturatingAdd_eq (by omega)
  have herr : saturatingAdd s.errorCount 1 = s.errorCount + 1 := saturatingAdd_eq (by omega)
  cases err with
  | cancellation reason =>
    unfold WorkflowRunSummary.recordError
    rw [noteFirstError_eq, ← herr, add_assoc, ← hcancelled]
    exact ⟨rfl, rfl⟩
  | validation | execution | lifecycle | metadata =>
    unfold WorkflowRunSummary.recordError
    rw [noteFirstError_eq, ← herr, add_right_comm, ← hfailed]
    exact ⟨rfl, rfl⟩

/-- Everything else a failing node leaves: the first error, the state it gives, and the rest as
it was. -/
lemma recordError_rest (s : WorkflowRunSummary) (err : PureflowError) :
    (s.recordError err).scheduledNodeCount = s.scheduledNodeCount ∧
      (s.recordError err).completedNodeCount = s.completedNodeCount ∧
      (s.recordError err).deadlockDiagnostic = s.deadlockDiagnostic ∧
      (s.recordError err).firstError = s.firstError.or (some err) ∧
      (s.recordError err).terminalState =
        s.firstError.elim (WorkflowRunSummary.stateOf err) fun _ => s.terminalState := by
  cases err with
  | cancellation | validation | execution | lifecycle | metadata =>
    simp [WorkflowRunSummary.recordError, noteFirstError_eq]

end Summary

/-- The accounts of the loop, in a state reached after the events. -/
structure Accounted (n : SliceLen) (events : List Event) (run : Run) : Prop where
  scheduled : run.summary.scheduledNodeCount = n
  total : run.summary.completedNodeCount + run.summary.failedNodeCount +
    run.summary.cancelledNodeCount + run.running = n
  errors : run.summary.errorCount = run.summary.failedNodeCount +
    run.summary.cancelledNodeCount + if run.summary.deadlockDiagnostic.isSome then 1 else 0
  state : run.summary.terminalState =
    run.summary.firstError.elim .completed WorkflowRunSummary.stateOf
  token : run.token.request = run.summary.firstError.map requestFor
  fired : run.summary.deadlockDiagnostic.isSome →
    run.returned.isSome ∧ ∃ ev ∈ events, ev.arrival = .deadline
  drained : run.returned = some (.ok ()) → run.summary.deadlockDiagnostic = none → run.running = 0

lemma Accounted.fresh {k : ℕ} {c : Collection} (h : Accounted n events ⟨k, c, none⟩) :
    c.summary.deadlockDiagnostic = none := by
  by_contra hne
  exact absurd (h.fired (Option.isSome_iff_ne_none.mpr hne)).1 (by simp)

lemma Accounted.returns {k : ℕ} {c : Collection} (h : Accounted n events ⟨k, c, none⟩) (ev : Event)
    {result : Except PureflowError Unit} (hok : result = .ok () → k = 0) :
    Accounted n (events ++ [ev]) ⟨k, c, some result⟩ where
  scheduled := h.scheduled
  total := h.total
  errors := h.errors
  state := h.state
  token := h.token
  fired hd := by
    rw [Run.summary, h.fresh] at hd
    cases hd
  drained hr _ := hok (Option.some.inj hr)

lemma accounted_start (n : SliceLen) : Accounted n [] (.start n) where
  scheduled := rfl
  total := by simp [Run.start, Run.summary, WorkflowRunSummary.new]
  errors := rfl
  state := rfl
  token := rfl
  fired h := by cases h
  drained h := by cases h

/-- An error that is told to the sink and recorded keeps the token in step with the first one. -/
lemma token_observe {c : Collection} (h : c.token.request = c.summary.firstError.map requestFor)
    (err : PureflowError) :
    (c.token.requestCancellation (requestFor err)).2.request =
      (c.summary.firstError.or (some err)).map requestFor := by
  cases hfirst : c.summary.firstError with
  | none =>
    rw [hfirst] at h
    simp [CancellationToken.requestCancellation, show c.token.request = none from h]
  | some first =>
    rw [hfirst] at h
    rw [CancellationToken.requestCancellation_of_some h, h]
    rfl

lemma accounted_success {k : ℕ} {c : Collection} {ev : Event}
    (h : Accounted n events ⟨k + 1, c, none⟩) :
    Accounted n (events ++ [ev]) ⟨k, { c with summary := c.summary.recordSuccess }, none⟩ := by
  have htotal := h.total
  have hadd : saturatingAdd c.summary.completedNodeCount 1 = c.summary.completedNodeCount + 1 := by
    apply saturatingAdd_eq
    simp only [Run.summary, usizeMax] at htotal ⊢
    omega
  refine ⟨h.scheduled, ?_, h.errors, h.state, h.token, fun hd => ?_, fun hr => by cases hr⟩
  · simp only [Run.summary, WorkflowRunSummary.recordSuccess, hadd] at htotal ⊢
    omega
  · rw [Run.summary, WorkflowRunSummary.recordSuccess, h.fresh] at hd
    cases hd

/-- A node error, whichever it is, is counted, keeps the first error and its state. The token is
what the round made of it. -/
lemma accounted_error {k : ℕ} {c : Collection} {ev : Event} {err : PureflowError}
    (h : Accounted n events ⟨k + 1, c, none⟩) {token : CancellationToken}
    (htoken : token.request = (c.summary.firstError.or (some err)).map requestFor)
    (records : List MetadataRecord) :
    Accounted n (events ++ [ev]) ⟨k, ⟨c.summary.recordError err, token, records⟩, none⟩ := by
  have htotal := h.total
  have herrors := h.errors
  have hfresh := h.fresh
  simp only [Run.summary, hfresh, Option.isSome_none, Bool.false_eq_true, if_false,
    add_zero] at htotal herrors
  obtain ⟨hnodes, hcount⟩ := recordError_counts c.summary err (by unfold usizeMax; omega)
    (by unfold usizeMax; omega)
  obtain ⟨hscheduled, hcompleted, hdiagnostic, hfirst, hstate⟩ := recordError_rest c.summary err
  refine ⟨hscheduled.trans h.scheduled, ?_, ?_, ?_, ?_, ?_, fun hr => by cases hr⟩
  · simp only [Run.summary, hcompleted]
    omega
  · simp only [Run.summary, hdiagnostic, hfresh, hcount]
    simp
    omega
  · have hold := h.state
    simp only [Run.summary] at hold ⊢
    rw [hstate, hfirst, hold]
    cases c.summary.firstError with
    | none => rfl
    | some first => rfl
  · simp only [Run.summary, Run.token, hfirst, htoken]
  · simp only [Run.summary, hdiagnostic, hfresh]
    simp

lemma deadlocked_firstError (c : Collection) (watchdog : DeadlockWatchdogPolicy) :
    (c.deadlocked context watchdog).firstError =
      c.summary.firstError.or (some (deadlockError context watchdog c.summary)) := by
  rw [Collection.deadlocked, WorkflowRunSummary.recordWorkflowError, noteFirstError_eq]
  rfl

lemma accounted_deadline {k : ℕ} {c : Collection} {sink : Except PureflowError Unit}
    {watchdog : DeadlockWatchdogPolicy} (h : Accounted n events ⟨k + 1, c, none⟩)
    (records : List MetadataRecord) {token : CancellationToken}
    (htoken : token.request = (c.summary.firstError.or
      (some (deadlockError context watchdog c.summary))).map requestFor) :
    Accounted n (events ++ [⟨.deadline, sink⟩])
      ⟨k + 1, ⟨c.deadlocked context watchdog, token, records⟩, some (.ok ())⟩ := by
  have htotal := h.total
  have herrors := h.errors
  have hstate := h.state
  rw [Run.summary, h.fresh] at herrors
  simp only [Run.summary, Option.isSome_none, Bool.false_eq_true, if_false, add_zero]
    at htotal herrors hstate
  have hcount : saturatingAdd c.summary.errorCount 1 = c.summary.errorCount + 1 :=
    saturatingAdd_eq (by unfold usizeMax; omega)
  have hsummary : c.deadlocked context watchdog =
      { c.summary with
        terminalState := c.summary.firstError.elim .failed fun _ => c.summary.terminalState
        errorCount := c.summary.errorCount + 1
        firstError := c.summary.firstError.or (some (deadlockError context watchdog c.summary))
        deadlockDiagnostic :=
          some (.fromRun context.workflow c.summary context.policy watchdog) } := by
    rw [Collection.deadlocked, WorkflowRunSummary.recordWorkflowError, noteFirstError_eq, hcount]
    rfl
  rw [hsummary]
  refine ⟨h.scheduled, htotal, ?_, ?_, htoken, fun _ => ⟨rfl, ?_⟩, fun _ hd => by cases hd⟩
  · simp only [Run.summary, Option.isSome_some, if_true]
    omega
  · simp only [Run.summary, hstate]
    cases c.summary.firstError with
    | none => rfl
    | some first => rfl
  · exact ⟨_, List.mem_append_right _ (List.mem_singleton_self _), rfl⟩

lemma accounted_next {run' : Run} {ev : Event} (h : Accounted n events run)
    (hsink : ev.sink = .ok ()) (hnext : run.next context ev = some run') :
    Accounted n (events ++ [ev]) run' := by
  cases next_cases hnext with
  | success => exact accounted_success h
  | @firstError k c nodeId err hfirst => exact accounted_error h (token_observe h.token err) _
  | firstErrorRefused hfirst => cases hsink
  | @laterError k c nodeId err sink first hfirst =>
    refine accounted_error h ?_ _
    refine h.token.trans ?_
    simp [Run.summary, hfirst]
  | exhausted => exact h.returns _ fun _ => rfl
  | deadline hpolicy =>
    exact accounted_deadline h _ (token_observe h.token _)
  | deadlineRefused hpolicy => cases hsink
  | noWatchdog => exact h.returns _ fun he => by cases he

lemma accounted_of_reached (hsink : ∀ ev ∈ events, ev.sink = .ok ())
    (h : Run.Reached context n events run) : Accounted n events run := by
  revert hsink
  refine h.invariant (P := fun events run => (∀ ev ∈ events, ev.sink = .ok ()) →
    Accounted n events run) (fun _ => accounted_start n) ?_
  intro before ev mid run' hmid hnext hsink
  refine accounted_next (hmid fun e he => hsink e (List.mem_append_left _ he)) ?_ hnext
  exact hsink ev (List.mem_append_right _ (List.mem_singleton_self ev))

lemma firstError_next {run' : Run} {ev : Event} (hsink : ev.sink = .ok ())
    (hnext : run.next context ev = some run') :
    run'.summary.firstError = run.summary.firstError.or (errorAt context run ev) := by
  cases next_cases hnext with
  | success => simp [errorAt, Run.summary, WorkflowRunSummary.recordSuccess]
  | @firstError k c nodeId err hfirst => exact (recordError_rest c.summary err).2.2.2.1
  | firstErrorRefused hfirst => cases hsink
  | @laterError k c nodeId err sink first hfirst =>
    exact (recordError_rest c.summary err).2.2.2.1
  | exhausted => simp [errorAt, Run.summary]
  | @deadline k c watchdog hpolicy =>
    simp only [errorAt, hpolicy]
    exact deadlocked_firstError c watchdog
  | deadlineRefused hpolicy => cases hsink
  | noWatchdog => simp [errorAt, Run.summary]

lemma firstError_of_reaches {run' : Run} (hsink : ∀ ev ∈ events, ev.sink = .ok ())
    (h : Reaches (Run.next context) run events run') :
    run'.summary.firstError =
      run.summary.firstError.or (observedErrors context run events).head? := by
  induction events generalizing run with
  | nil =>
    rw [Reaches.nil.mp h]
    simp [observedErrors]
  | cons ev rest ih =>
    obtain ⟨mid, hmid, hrest⟩ := Reaches.cons.mp h
    have hev := firstError_next (hsink ev List.mem_cons_self) hmid
    rw [ih (fun e he => hsink e (List.mem_cons_of_mem _ he)) hrest, hev, observedErrors, hmid,
      Option.elim_some, List.head?_append, Option.head?_toList, Option.or_assoc]

section Terminal

variable {first : Option PureflowError}

lemma stateOf_completed :
    first.elim .completed WorkflowRunSummary.stateOf = .completed ↔ first = none := by
  rcases first with _ | err
  · simp
  · cases err <;> simp [WorkflowRunSummary.stateOf]

lemma stateOf_cancelled :
    first.elim .completed WorkflowRunSummary.stateOf = .cancelled ↔
      ∃ reason, first = some (.cancellation reason) := by
  rcases first with _ | err
  · simp
  · cases err <;> simp [WorkflowRunSummary.stateOf]

lemma stateOf_failed :
    first.elim .completed WorkflowRunSummary.stateOf = .failed ↔
      ∃ err, first = some err ∧ ∀ reason, err ≠ .cancellation reason := by
  rcases first with _ | err
  · simp
  · cases err <;> simp [WorkflowRunSummary.stateOf]

end Terminal

/-- What the summary and the token say in a state reached after the events. -/
structure SummaryAccounting (context : WorkflowCollectionContext) (n : SliceLen)
    (events : List Event) (run : Run) : Prop where
  /-- Every scheduled node is counted once; the pending ones are those left, so nothing
  saturates. -/
  conserved : run.summary.completedNodeCount + run.summary.failedNodeCount +
    run.summary.cancelledNodeCount + run.summary.pendingNodeCount = n ∧
    run.summary.pendingNodeCount = run.running
  drained : run.returned = some (.ok ()) → (∀ ev ∈ events, ev.arrival ≠ .deadline) →
    run.summary.pendingNodeCount = 0
  firstError : run.summary.firstError = (observedErrors context (.start n) events).head?
  completed : run.summary.terminalState = .completed ↔ run.summary.firstError = none
  cancelled : run.summary.terminalState = .cancelled ↔
    ∃ reason, run.summary.firstError = some (.cancellation reason)
  failed : run.summary.terminalState = .failed ↔
    ∃ err, run.summary.firstError = some err ∧ ∀ reason, err ≠ .cancellation reason
  errorCount : run.summary.errorCount = run.summary.failedNodeCount +
    run.summary.cancelledNodeCount + if run.summary.deadlockDiagnostic.isSome then 1 else 0
  requested : run.token.request = run.summary.firstError.map requestFor
  /-- A request stands in every later state. -/
  kept : ∀ before after mid, events = before ++ after → Run.Reached context n before mid →
    ∀ request, mid.token.request = some request → run.token.request = some request

lemma Accounted.pending (h : Accounted n events run) :
    run.summary.pendingNodeCount = run.running := by
  have htotal := h.total
  have hn := n.isLt
  have hinner : saturatingAdd run.summary.completedNodeCount run.summary.failedNodeCount =
      run.summary.completedNodeCount + run.summary.failedNodeCount :=
    saturatingAdd_eq (by unfold usizeMax; omega)
  have houter : saturatingAdd (run.summary.completedNodeCount + run.summary.failedNodeCount)
      run.summary.cancelledNodeCount = run.summary.completedNodeCount +
        run.summary.failedNodeCount + run.summary.cancelledNodeCount :=
    saturatingAdd_eq (by unfold usizeMax; omega)
  rw [WorkflowRunSummary.pendingNodeCount, hinner, houter, h.scheduled]
  omega

/-- **Run summary accounting.** After any events, whatever the node results and their order and
wherever the watchdog fires, as long as the sink accepts every record. -/
theorem summary_accounting (context : WorkflowCollectionContext) (n : SliceLen)
    (events : List Event) (run : Run) (hsink : ∀ ev ∈ events, ev.sink = .ok ())
    (h : Run.Reached context n events run) : SummaryAccounting context n events run := by
  have hacc := accounted_of_reached hsink h
  have hpending := hacc.pending
  refine ⟨⟨?_, hpending⟩, fun hret hquiet => ?_, ?_, ?_, ?_, ?_, hacc.errors, hacc.token, ?_⟩
  · rw [hpending]
    exact hacc.total
  · rw [hpending]
    refine hacc.drained hret ?_
    by_contra hne
    obtain ⟨-, ev, hev, harrival⟩ := hacc.fired (Option.isSome_iff_ne_none.mpr hne)
    exact hquiet ev hev harrival
  · exact firstError_of_reaches hsink h
  · rw [hacc.state, stateOf_completed]
  · rw [hacc.state, stateOf_cancelled]
  · rw [hacc.state, stateOf_failed]
  · rintro before after mid rfl hmid request hrequest
    obtain ⟨mid', hmid', hafter⟩ := Reaches.append.mp h
    obtain rfl : mid = mid' := Option.some.inj (hmid.symm.trans hmid')
    have hbefore := accounted_of_reached (fun ev he => hsink ev (List.mem_append_left _ he)) hmid
    have hfirst := firstError_of_reaches (fun ev he => hsink ev (List.mem_append_right _ he)) hafter
    rw [hbefore.token] at hrequest
    obtain ⟨err, herr, rfl⟩ := Option.map_eq_some_iff.mp hrequest
    rw [hacc.token, hfirst, herr]
    rfl

section Sample

/-- Two nodes and no edge, watched for one second without progress. -/
def sampleContext : WorkflowCollectionContext where
  workflow := ⟨⟨"flow", workflow_flow_valid⟩,
    ⟨[⟨⟨"a", node_a_valid⟩, [], [], by decide⟩, ⟨⟨"b", node_b_valid⟩, [], [], by decide⟩],
      [], by decide⟩⟩
  execution := .firstAttempt ⟨"run-1", execution_run_valid⟩
  policy := ⟨.reject, .deadlock ⟨⟨1, 0⟩⟩⟩

/-- Node `a` fails and nothing more comes: the watchdog fires. -/
def sampleEvents : List Event :=
  [⟨.result ⟨"a", node_a_valid⟩ (.error (.execution "a broke")), .ok ()⟩, ⟨.deadline, .ok ()⟩]

theorem summary_accounting_sample :
    (∀ ev ∈ sampleEvents, ev.sink = .ok ()) ∧ ∃ run,
      Run.Reached sampleContext 2 sampleEvents run ∧
      run.summary.firstError = some (.execution "a broke") ∧
      SummaryAccounting sampleContext 2 sampleEvents run := by
  have hsink : ∀ ev ∈ sampleEvents, ev.sink = .ok () := by
    simp [sampleEvents]
  refine ⟨hsink, _, rfl, rfl, ?_⟩
  exact summary_accounting sampleContext 2 sampleEvents _ hsink rfl

end Sample

end Pureflow.Engine
