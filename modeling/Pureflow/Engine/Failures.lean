import Pureflow.Engine.Accounting
import Pureflow.Runtime.Observers

/-!
What a failing run reports: the records of the failure, and the error it returns.

A run records its failure once unless the watchdog fires after a node has failed. The error of
an executor is what the run reports as long as the sink accepts the record of it, and as long as
the loop does not fail later on.
-/

namespace Pureflow.Engine

open Pureflow.Types Pureflow.Core Pureflow.Lib Pureflow.Runtime

variable {context : WorkflowCollectionContext} {n : SliceLen} {events : List Event} {run : Run}

namespace Event

def isNodeError (ev : Event) : Bool :=
  match ev.arrival with
  | .result _ (.error _) => true
  | _ => false

def isDeadline (ev : Event) : Bool :=
  match ev.arrival with
  | .deadline => true
  | _ => false

end Event

section Records

/-- The error of a record that says a workflow failed. -/
def workflowFailure : MetadataRecord → Option PureflowError
  | .error record => if record.kind = .workflowFailed then some record.error else none
  | _ => none

/-- The workflow failures told to the sink. -/
def Run.failures (run : Run) : List PureflowError := run.records.filterMap workflowFailure

/-- At most one failure is told, and the one that the returned summary names. -/
def ReportsOnce (run : Run) : Prop :=
  run.failures.length ≤ 1 ∧
    ∀ summary err, run.result = some (.ok summary) → summary.firstError = some err →
      run.failures = [err]

/-- The watchdog does not fire once a node error was observed. -/
def QuietAfterError (events : List Event) : Prop :=
  events.Pairwise fun ev later => ev.isNodeError → later.isDeadline = false

instance (events : List Event) : Decidable (QuietAfterError events) :=
  inferInstanceAs (Decidable (events.Pairwise _))

lemma quietAfterError_append {ev : Event} :
    QuietAfterError (events ++ [ev]) ↔
      QuietAfterError events ∧ ∀ e ∈ events, e.isNodeError → ev.isDeadline = false := by
  simp [QuietAfterError, List.pairwise_append]

lemma quietAfterError_of_no_deadline (h : ∀ ev ∈ events, ev.isDeadline = false) :
    QuietAfterError events :=
  List.pairwise_of_forall_mem_list fun _ _ later hlater _ => h later hlater

/-- The failures told in a state reached after the events. -/
structure Told (events : List Event) (run : Run) : Prop where
  quiet : run.returned = none → ∀ ev ∈ events, ev.isDeadline = false
  seen : run.returned = none →
    (run.summary.firstError = none ↔ ∀ ev ∈ events, ev.isNodeError = false)
  once : QuietAfterError events → run.failures = run.summary.firstError.toList
  twice : ¬ QuietAfterError events → run.failures.length = 2

lemma Told.told {k : ℕ} {c : Collection} (h : Told events ⟨k, c, none⟩) :
    c.records.filterMap workflowFailure = c.summary.firstError.toList :=
  h.once (quietAfterError_of_no_deadline (h.quiet rfl))

lemma told_start (n : SliceLen) : Told [] (.start n) where
  quiet _ := by simp
  seen _ := by simp [Run.start, Run.summary, WorkflowRunSummary.new]
  once _ := rfl
  twice h := absurd List.Pairwise.nil h

lemma Told.silent {k k' : ℕ} {c : Collection} {ev : Event} (h : Told events ⟨k, c, none⟩)
    (herror : ev.isNodeError = false) (hdeadline : ev.isDeadline = false) {c' : Collection}
    (hfirst : c'.summary.firstError = c.summary.firstError) (hrecords : c'.records = c.records)
    (returned : Option (Except PureflowError Unit)) :
    Told (events ++ [ev]) ⟨k', c', returned⟩ := by
  have hquiet := h.quiet rfl
  have hquiet' : QuietAfterError (events ++ [ev]) :=
    quietAfterError_append.mpr ⟨quietAfterError_of_no_deadline hquiet, fun _ _ _ => hdeadline⟩
  refine ⟨fun _ => ?_, fun _ => ?_, fun _ => ?_, fun hn => absurd hquiet' hn⟩
  · simpa [or_imp, forall_and] using ⟨hquiet, hdeadline⟩
  · have := h.seen rfl
    simp only [Run.summary] at this ⊢
    rw [hfirst, this]
    simp [or_imp, forall_and, herror]
  · simp only [Run.failures, Run.records, Run.summary, hrecords, hfirst]
    exact h.told

lemma Told.shows {k k' : ℕ} {c c' : Collection} {nodeId : NodeId} {err first : PureflowError}
    {sink : Except PureflowError Unit} (h : Told events ⟨k, c, none⟩)
    (hfirst : c'.summary.firstError = some first)
    (hrecords : c'.records.filterMap workflowFailure = [first]) :
    Told (events ++ [⟨.result nodeId (.error err), sink⟩]) ⟨k', c', none⟩ := by
  have hquiet := h.quiet rfl
  have hquiet' : QuietAfterError (events ++ [⟨.result nodeId (.error err), sink⟩]) :=
    quietAfterError_append.mpr ⟨quietAfterError_of_no_deadline hquiet, fun _ _ _ => rfl⟩
  refine ⟨fun _ => ?_, fun _ => ?_, fun _ => ?_, fun hn => absurd hquiet' hn⟩
  · simpa [or_imp, forall_and] using ⟨hquiet, rfl⟩
  · simp [Run.summary, hfirst, or_imp, forall_and, Event.isNodeError]
  · simp [Run.failures, Run.records, Run.summary, hfirst, hrecords]

lemma told_deadline {k : ℕ} {c : Collection} {watchdog : DeadlockWatchdogPolicy}
    {sink : Except PureflowError Unit} (h : Told events ⟨k, c, none⟩) (token : CancellationToken) :
    Told (events ++ [⟨.deadline, sink⟩])
      ⟨k, ⟨c.deadlocked context watchdog, token,
        c.records ++ [deadlockRecord context watchdog c.summary]⟩, some (.ok ())⟩ := by
  have hquiet := quietAfterError_of_no_deadline (h.quiet rfl)
  have hseen : c.summary.firstError = none ↔ ∀ ev ∈ events, ev.isNodeError = false := h.seen rfl
  have hfailures : (c.records ++ [deadlockRecord context watchdog c.summary]).filterMap
      workflowFailure =
        c.summary.firstError.toList ++ [deadlockError context watchdog c.summary] := by
    rw [List.filterMap_append, h.told]
    rfl
  have hnone : QuietAfterError (events ++ [⟨.deadline, sink⟩]) ↔ c.summary.firstError = none := by
    rw [quietAfterError_append, hseen]
    simp [hquiet, Event.isDeadline]
  refine ⟨nofun, nofun, fun hq => ?_, fun hq => ?_⟩
  · -- no node error was seen, so the deadlock is the first error
    rw [hnone] at hq
    simp only [Run.failures, Run.records, Run.summary, hfailures, deadlocked_firstError, hq]
    rfl
  · rw [hnone] at hq
    obtain ⟨first, hsome⟩ := Option.ne_none_iff_exists'.mp hq
    simp only [Run.failures, Run.records, hfailures, hsome]
    rfl

lemma told_next {run' : Run} {ev : Event} (h : Told events run) (hsink : ev.sink = .ok ())
    (hnext : run.next context ev = some run') : Told (events ++ [ev]) run' := by
  cases next_cases hnext with
  | success => refine h.silent ?_ ?_ ?_ ?_ _ <;> rfl
  | @firstError k c nodeId err hfirst =>
    have hnone := h.told
    rw [hfirst, Option.toList_none] at hnone
    have hrest := (recordError_rest c.summary err).2.2.2.1
    rw [hfirst, Option.none_or] at hrest
    refine h.shows hrest ?_
    simp [Collection.observe, failureRecord, hnone, workflowFailure,
      ErrorMetadataRecord.workflowFailed]
  | firstErrorRefused hfirst => cases hsink
  | @laterError k c nodeId err sink first hfirst =>
    have hone := h.told
    rw [hfirst, Option.toList_some] at hone
    have hrest := (recordError_rest c.summary err).2.2.2.1
    rw [hfirst, Option.some_or] at hrest
    exact h.shows hrest hone
  | exhausted => refine h.silent ?_ ?_ ?_ ?_ _ <;> rfl
  | deadline hpolicy => exact told_deadline h _
  | deadlineRefused hpolicy => cases hsink
  | noWatchdog => refine h.silent ?_ ?_ ?_ ?_ _ <;> rfl

lemma told_of_reached (hsink : ∀ ev ∈ events, ev.sink = .ok ())
    (h : Run.Reached context n events run) : Told events run := by
  revert hsink
  refine h.invariant (P := fun events run => (∀ ev ∈ events, ev.sink = .ok ()) →
    Told events run) (fun _ => told_start n) ?_
  intro before ev mid run' hmid hnext hsink
  refine told_next (hmid fun e he => hsink e (List.mem_append_left _ he)) ?_ hnext
  exact hsink ev (List.mem_append_right _ (List.mem_singleton_self ev))

/-- **A failure is recorded once** exactly in the runs whose watchdog does not fire after a node
error was observed. -/
theorem reports_once_iff (context : WorkflowCollectionContext) (n : SliceLen)
    (events : List Event) (run : Run) (hsink : ∀ ev ∈ events, ev.sink = .ok ())
    (h : Run.Reached context n events run) : ReportsOnce run ↔ QuietAfterError events := by
  have htold := told_of_reached hsink h
  by_cases hquiet : QuietAfterError events
  · have hfailures := htold.once hquiet
    refine iff_of_true ⟨?_, fun summary err hresult herr => ?_⟩ hquiet
    · rw [hfailures]
      cases run.summary.firstError <;> simp
    · obtain ⟨r, -, hr⟩ := Option.map_eq_some_iff.mp hresult
      rcases r with e | ⟨⟩
      · cases hr
      · cases hr
        rw [hfailures, herr]
        rfl
  · refine iff_of_false (fun hreports => ?_) hquiet
    have htwice := htold.twice hquiet
    have hle := hreports.1
    omega

theorem reports_once_sample :
    (∀ ev ∈ sampleEvents.take 1, ev.sink = .ok ()) ∧ ∃ run,
      Run.Reached sampleContext 2 (sampleEvents.take 1) run ∧
      run.failures = [.execution "a broke"] ∧
      (ReportsOnce run ↔ QuietAfterError (sampleEvents.take 1)) := by
  have hsink : ∀ ev ∈ sampleEvents.take 1, ev.sink = .ok () := by
    simp [sampleEvents]
  refine ⟨hsink, _, rfl, rfl, ?_⟩
  exact reports_once_iff sampleContext 2 _ _ hsink rfl

/-- Node `a` fails, node `b` hangs and the watchdog fires: two records, and the second does not
carry the error of the summary. -/
theorem watchdog_reports_twice :
    (∀ ev ∈ sampleEvents, ev.sink = .ok ()) ∧ ∃ run summary,
      Run.Reached sampleContext 2 sampleEvents run ∧ run.result = some (.ok summary) ∧
      summary.firstError = some (.execution "a broke") ∧ run.failures.length = 2 ∧
      ¬ ReportsOnce run := by
  refine ⟨by simp [sampleEvents], _, _, rfl, rfl, rfl, rfl, fun h => ?_⟩
  exact absurd h.1 (by decide)

end Records

section Precedence

variable {err : PureflowError}

/-- Cancellation is requested, and what the run returns, once it does, names the error: in its
summary or as its own. -/
def Reports (err : PureflowError) (run : Run) : Prop :=
  run.token.isCancelled = true ∧
    (∀ summary, run.result = some (.ok summary) → summary.firstError = some err) ∧
    ∀ e, run.result = some (.error e) → e = err

/-- The loop does not fail with another error at this event: the sink accepts the record of a
deadline, and the thread of a watchdog starts. -/
def Event.keeps (err : PureflowError) (ev : Event) : Prop :=
  match ev.arrival with
  | .deadline => ev.sink = .ok () ∨ ev.sink = .error err
  | .noWatchdog text => watchdogError text = err
  | _ => True

lemma reaches_of_returned {run' : Run} (hret : run.returned.isSome)
    (h : Reaches (Run.next context) run events run') : events = [] ∧ run = run' := by
  cases events with
  | nil => exact ⟨rfl, Reaches.nil.mp h⟩
  | cons ev rest =>
    obtain ⟨mid, hmid, -⟩ := Reaches.cons.mp h
    simp [Run.next, hret] at hmid

/-- No error was observed and no cancellation requested while the loop runs and no node failed. -/
lemma untouched_of_reached (h : Run.Reached context n events run)
    (hok : ∀ ev ∈ events, ev.isNodeError = false) (hrun : run.returned = none) :
    run.summary.firstError = none ∧ run.token.request = none := by
  revert hok hrun
  refine h.invariant (P := fun events run => (∀ ev ∈ events, ev.isNodeError = false) →
    run.returned = none → run.summary.firstError = none ∧ run.token.request = none)
    (fun _ _ => ⟨rfl, rfl⟩) ?_
  intro before ev mid run' hmid hnext hok hrun
  have hev := hok ev (List.mem_append_right _ (List.mem_singleton_self ev))
  have hbefore := hmid fun e he => hok e (List.mem_append_left _ he)
  cases next_cases hnext with
  | success => exact hbefore rfl
  | firstError hfirst => cases hev
  | firstErrorRefused hfirst => cases hrun
  | laterError hfirst => cases hev
  | exhausted => cases hrun
  | deadline hpolicy => cases hrun
  | deadlineRefused hpolicy => cases hrun
  | noWatchdog => cases hrun

/-- An observed first error: it is in the summary, cancellation is requested, and the loop still
runs. -/
structure Observed (err : PureflowError) (run : Run) : Prop where
  running : run.returned = none
  firstError : run.summary.firstError = some err
  request : run.token.request = some (requestFor err)

lemma Observed.next {run' : Run} {ev : Event} (hobs : Observed err run)
    (hnext : run.next context ev = some run') :
    Observed err run' ∧ ev.keeps err ∨
      run'.returned.isSome ∧ (Reports err run' ↔ ev.keeps err) := by
  have hcancelled : run.token.isCancelled = true := by
    simp [CancellationToken.isCancelled, hobs.request]
  cases next_cases hnext with
  | success => exact .inl ⟨⟨rfl, hobs.firstError, hobs.request⟩, trivial⟩
  | firstError hfirst => cases hobs.firstError.symm.trans hfirst
  | firstErrorRefused hfirst => cases hobs.firstError.symm.trans hfirst
  | @laterError k c nodeId later sink first hfirst =>
    have hkept := (recordError_rest c.summary later).2.2.2.1
    rw [show c.summary.firstError = some err from hobs.firstError, Option.some_or] at hkept
    exact .inl ⟨⟨rfl, hkept, hobs.request⟩, trivial⟩
  | exhausted =>
    refine .inr ⟨rfl, iff_of_true ⟨hcancelled, fun summary hr => ?_, fun e hr => ?_⟩ trivial⟩
    · cases hr
      exact hobs.firstError
    · cases hr
  | @deadline k c watchdog hpolicy =>
    refine .inr ⟨rfl, iff_of_true ⟨?_, fun summary hr => ?_, fun e hr => ?_⟩ (.inl rfl)⟩
    · -- the request of the first error stands
      rw [Run.token, Collection.observe,
        CancellationToken.requestCancellation_of_some (show c.token.request = _ from hobs.request)]
      exact hcancelled
    · cases hr
      refine (deadlocked_firstError c watchdog).trans ?_
      rw [show c.summary.firstError = some err from hobs.firstError, Option.some_or]
    · cases hr
  | @deadlineRefused k c watchdog refusal hpolicy =>
    refine .inr ⟨rfl, fun hreports => .inr ?_, fun hkeeps => ⟨hcancelled, ?_, fun e hr => ?_⟩⟩
    · rw [hreports.2.2 refusal rfl]
    · intro summary hr
      cases hr
    · cases hr
      rcases hkeeps with hpolicy' | hrefused
      · cases hpolicy'
      · exact Except.error.inj hrefused
  | @noWatchdog k c text sink =>
    refine .inr ⟨rfl, fun hreports => hreports.2.2 _ rfl,
      fun hkeeps => ⟨hcancelled, fun summary hr => ?_, fun e hr => ?_⟩⟩
    · cases hr
    · cases hr
      exact hkeeps

/-- From there on the run reports the error exactly when no later event makes the loop fail with
another one. -/
lemma reports_iff_of_observed {run' : Run} (hobs : Observed err run)
    (h : Reaches (Run.next context) run events run') :
    Reports err run' ↔ ∀ ev ∈ events, ev.keeps err := by
  induction events generalizing run with
  | nil =>
    rw [← Reaches.nil.mp h]
    refine iff_of_true ⟨?_, ?_, ?_⟩ (by simp)
    · simp [CancellationToken.isCancelled, hobs.request]
    · simp [Run.result, hobs.running]
    · simp [Run.result, hobs.running]
  | cons ev rest ih =>
    obtain ⟨mid, hmid, hrest⟩ := Reaches.cons.mp h
    rw [List.forall_mem_cons]
    rcases hobs.next hmid with ⟨hobs', hkeeps⟩ | ⟨hret, hreports⟩
    · rw [ih hobs' hrest]
      exact (and_iff_right hkeeps).symm
    · obtain ⟨rfl, rfl⟩ := reaches_of_returned hret hrest
      rw [hreports]
      simp

/-- **An executor failure takes precedence** over failures of the sink, in exactly these runs: the
first error observed is that of an executor; then the run reports it if and only if the sink
accepts the record of it and the loop does not fail with another error later. -/
theorem executor_error_reported_iff (context : WorkflowCollectionContext) (n : SliceLen)
    (before after : List Event) (nodeId : NodeId) (o : Observers) (ctx : NodeContext)
    (journal : Journal) (err : PureflowError) (sink : Except PureflowError Unit) (run : Run)
    (hstarts : Starts o ctx journal) (hbefore : ∀ ev ∈ before, ev.isNodeError = false)
    (h : Run.Reached context n (before ++
      ⟨.result nodeId (runNodeWithObservers o ctx (.error err) journal).1, sink⟩ :: after) run) :
    Reports err run ↔ sink = .ok () ∧ ∀ ev ∈ after, ev.keeps err := by
  rw [runNodeWithObservers_error hstarts] at h
  obtain ⟨mid, hmid, hrest⟩ := Reaches.append.mp h
  obtain ⟨mid', hmid', hafter⟩ := Reaches.cons.mp hrest
  cases next_cases hmid' with
  | @firstError k c _ _ hfirst =>
    have hkept := (recordError_rest c.summary err).2.2.2.1
    rw [hfirst, Option.none_or] at hkept
    have hrequest : (c.token.requestCancellation (requestFor err)).2.request =
        some (requestFor err) := by
      have hnone : c.token.request = none := (untouched_of_reached hmid hbefore rfl).2
      simp [CancellationToken.requestCancellation, hnone]
    have hobs : Observed err
        ⟨k, c.observe (failureRecord context err) err (c.summary.recordError err), none⟩ :=
      ⟨rfl, hkept, hrequest⟩
    rw [reports_iff_of_observed hobs hafter]
    exact (and_iff_right rfl).symm
  | @firstErrorRefused k c _ _ refusal hfirst =>
    -- the loop has returned before it requested cancellation
    obtain ⟨rfl, rfl⟩ := reaches_of_returned (by rfl) hafter
    refine iff_of_false ?_ ?_
    · intro hreports
      have hnone : c.token.request = none := (untouched_of_reached hmid hbefore rfl).2
      have hcancelled : c.token.request.isSome = true := hreports.1
      rw [hnone] at hcancelled
      cases hcancelled
    · rintro ⟨hsink, -⟩
      cases hsink
  | laterError hfirst =>
    cases hfirst.symm.trans (untouched_of_reached hmid hbefore rfl).1

/-- Observers that accept everything. -/
def acceptAll : Observers := ⟨fun _ => .ok (), fun _ => .ok ()⟩

def sampleNode : NodeContext :=
  .new ⟨"flow", workflow_flow_valid⟩ ⟨"a", node_a_valid⟩
    (.firstAttempt ⟨"run-1", execution_run_valid⟩)

/-- The failure of node `a`, as the loop observes it, with the sink's answer to its record. -/
def sampleFailure (sink : Except PureflowError Unit) : Event :=
  ⟨.result ⟨"a", node_a_valid⟩
    (runNodeWithObservers acceptAll sampleNode (.error (.execution "a broke")) ⟨[], []⟩).1, sink⟩

theorem executor_error_reported_sample :
    Starts acceptAll sampleNode ⟨[], []⟩ ∧ ∃ run,
      Run.Reached sampleContext 2 [sampleFailure (.ok ())] run ∧
      (Reports (.execution "a broke") run ↔
        (.ok () : Except PureflowError Unit) = .ok () ∧
          ∀ ev ∈ ([] : List Event), ev.keeps (.execution "a broke")) := by
  refine ⟨rfl, _, rfl, ?_⟩
  exact executor_error_reported_iff sampleContext 2 [] [] _ acceptAll sampleNode ⟨[], []⟩ _ _ _ rfl
    (by simp) rfl

/-- The executor of node `a` fails and the sink refuses the record of it: the run returns the
sink's error, and no cancellation is requested. -/
theorem sink_failure_replaces_executor_error :
    Starts acceptAll sampleNode ⟨[], []⟩ ∧ ∃ run,
      Run.Reached sampleContext 2 [sampleFailure (.error (.metadata "sink down"))] run ∧
      run.result = some (.error (.metadata "sink down")) ∧ run.token.isCancelled = false ∧
      ¬ Reports (.execution "a broke") run := by
  refine ⟨rfl, _, rfl, rfl, rfl, fun h => ?_⟩
  exact absurd h.1 (by decide)

end Precedence

end Pureflow.Engine
