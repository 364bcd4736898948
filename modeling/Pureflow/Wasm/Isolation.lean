import Pureflow.Lib.Runs
import Pureflow.Wasm.Audit

/-!
Guest calls that share an engine.

Every call has its token, its store and the thread that watches its token, but all stores of an
engine are timed by one epoch. The watcher of a cancelled call increments this epoch, and a store
traps as soon as it looks at an epoch that has reached its deadline, whoever brought it there.
-/

namespace Pureflow.Wasm

open Pureflow.Types Pureflow.Core Pureflow.Lib

/-- Execution limits of a component: the fuel of a call, and the ticks after which an increment of
the epoch interrupts its store. -/
structure WasmtimeExecutionLimits where
  fuel : UInt64
  cancellationEpochDeadline : UInt64

/-- One call of the export of a component. Instantiating the component takes `loading` looks at
the epoch and the guest another `calling` ones until it ends; `ended` is how it ends uninterrupted,
or what went wrong before it was called. The texts are those of an interruption and of the error
that wraps it where it comes before the call. -/
structure GuestCall (α : Type) where
  request : CancellationRequest
  loading : ℕ
  calling : ℕ
  ended : Except PureflowError CallOutcome
  decode : Val → Except PureflowError α
  interruption : String
  loadFailure : String
  fuelLeft : ℕ → Option UInt64

namespace GuestCall

variable {α : Type} (limits : WasmtimeExecutionLimits) (call : GuestCall α)

/-- What the call returns when nothing interrupts it. -/
def answer : Except PureflowError α := do
  let outcome ← call.ended
  match outcome.result with
  | .error err => .error (mapGuestCallError err limits.fuel outcome.remainingFuel)
  | .ok result => call.decode result

/-- What comes of an interrupted instantiation. -/
def loadTrap : PureflowError := .execution s!"{call.loadFailure}: {call.interruption}"

/-- What comes of an interrupted guest, with some looks left. -/
def guestTrap (left : ℕ) : PureflowError :=
  mapGuestCallError call.interruption limits.fuel (call.fuelLeft left)

/-- The looks that follow the instantiation. -/
def later : ℕ :=
  match call.ended with
  | .error _ => 0
  | .ok _ => call.calling

end GuestCall

/-- The call of a rule evaluation on a component. -/
def RuleComponent.guestCall (component : RuleComponent) (ruleSet : Rules.RuleSet)
    (context : HostEvalContext) (request : CancellationRequest) (loading calling : ℕ)
    (interruption : String) (fuelLeft : ℕ → Option UInt64) : GuestCall Rules.RuleDecision where
  request := request
  loading := loading
  calling := calling
  ended := (component.params ruleSet context).map fun params => component.call params.1 params.2
  decode := decisionFromResultVal
  interruption := interruption
  loadFailure := "failed to instantiate rule component"
  fuelLeft := fuelLeft

/-- Where a call is. `entered` has looked at its token; the guest is in flight with its deadline
and the looks left; a call that is over tells its watcher and waits for it, and then `looks`
whether it was interrupted, unless it failed before the guest was called. -/
inductive Phase (α : Type)
  | idle
  | entered
  | loading (deadline left : ℕ)
  | calling (deadline left : ℕ)
  | returned (result : Except PureflowError α) (looks : Bool)
  | closing (result : Except PureflowError α) (looks : Bool)
  | finished (result : Except PureflowError α)

def Phase.isComplete {α : Type} : Phase α → Bool
  | .closing _ _ | .finished _ => true
  | _ => false

/-- The thread that watches the token of a call. `looked` has seen that the call is not over. -/
inductive Watcher
  | off
  | watching
  | looked
  | stopped (interrupted : Bool)
  deriving DecidableEq

structure Invocation (α : Type) where
  phase : Phase α
  watcher : Watcher
  cancelled : Bool

inductive Move
  | request
  | enter
  | start
  | guest
  | tell
  | look
  | poll
  | join
  deriving DecidableEq

namespace Invocation

variable {α : Type} (limits : WasmtimeExecutionLimits) (call : GuestCall α) (epoch : ℕ)

/-- The guest's next step: a look at the epoch, or the end of what it is doing. -/
def guestStep : Phase α → Option (Phase α)
  | .loading deadline (left + 1) =>
    some (if deadline ≤ epoch then .returned (.error call.loadTrap) false
      else .loading deadline left)
  | .loading deadline 0 =>
    match call.ended with
    | .error err => some (.returned (.error err) false)
    | .ok _ => some (.calling deadline call.calling)
  | .calling deadline (left + 1) =>
    some (if deadline ≤ epoch then .returned (.error (call.guestTrap limits left)) true
      else .calling deadline left)
  | .calling _ 0 => some (.returned (call.answer limits) true)
  | _ => none

/-- A step of one call, and whether its watcher increments the epoch. -/
def move (v : Invocation α) : Move → Option (Invocation α × Bool)
  | .request => some ({ v with cancelled := true }, false)
  | .enter =>
    match v.phase with
    | .idle => some ({ v with
        phase := if v.cancelled then .finished (.error (.cancellation call.request.reason))
          else .entered }, false)
    | _ => none
  | .start =>
    match v.phase with
    | .entered => some ({ v with
        phase := .loading (epoch + limits.cancellationEpochDeadline.toNat) call.loading
        watcher := .watching }, false)
    | _ => none
  | .guest => (guestStep limits call epoch v.phase).map fun phase => ({ v with phase }, false)
  | .tell =>
    match v.phase with
    | .returned result looks => some ({ v with phase := .closing result looks }, false)
    | _ => none
  | .look =>
    match v.watcher with
    | .watching => some ({ v with
        watcher := if v.phase.isComplete then .stopped false else .looked }, false)
    | _ => none
  | .poll =>
    match v.watcher with
    | .looked =>
      if v.cancelled then some ({ v with watcher := .stopped true }, true)
      else some ({ v with watcher := .watching }, false)
    | _ => none
  | .join =>
    match v.phase, v.watcher with
    | .closing result looks, .stopped interrupted => some ({ v with
        phase := .finished (if looks && interrupted then
          .error (.cancellation call.request.reason) else result) }, false)
    | _, _ => none

end Invocation

/-- The calls on one engine, with its epoch. -/
structure SharedEngine (ι α : Type) where
  epoch : ℕ
  invocations : ι → Invocation α

namespace SharedEngine

variable {ι α : Type} [DecidableEq ι] (limits : WasmtimeExecutionLimits) (calls : ι → GuestCall α)

def fresh : SharedEngine ι α := ⟨0, fun _ => ⟨.idle, .off, false⟩⟩

/-- A step of one of the calls. -/
def next (s : SharedEngine ι α) (action : ι × Move) : Option (SharedEngine ι α) :=
  (Invocation.move limits (calls action.1) s.epoch (s.invocations action.1) action.2).map
    fun (v, increments) =>
      { epoch := if increments then s.epoch + 1 else s.epoch
        invocations := Function.update s.invocations action.1 v }

end SharedEngine

section Verdict

variable {α : Type} {limits : WasmtimeExecutionLimits} {call : GuestCall α} {epoch : ℕ}
  {v v' : Invocation α} {m : Move} {increments : Bool}

/-- The guest is in flight and finds its deadline reached when it looks at the epoch again. -/
def Phase.Overdue (call : GuestCall α) (epoch : ℕ) : Phase α → Prop
  | .loading deadline left => 0 < left + call.later ∧ deadline ≤ epoch
  | .calling deadline left => 0 < left ∧ deadline ≤ epoch
  | _ => False

/-- What the call returns because its store was interrupted. -/
def GuestCall.IsTrap (limits : WasmtimeExecutionLimits) (call : GuestCall α)
    (result : Except PureflowError α) : Prop :=
  result = .error call.loadTrap ∨ ∃ left, result = .error (call.guestTrap limits left)

/-- The guest was not interrupted and is not about to be. -/
def Phase.Undisturbed (limits : WasmtimeExecutionLimits) (call : GuestCall α) (epoch : ℕ) :
    Phase α → Prop
  | .returned result _ | .closing result _ | .finished result => result = call.answer limits
  | phase => ¬ phase.Overdue call epoch

/-- The guest was interrupted or is about to be. -/
def Phase.Interrupted (limits : WasmtimeExecutionLimits) (call : GuestCall α) (epoch : ℕ) :
    Phase α → Prop
  | .returned result _ | .closing result _ | .finished result => call.IsTrap limits result
  | phase => phase.Overdue call epoch

lemma move_watcher (h : v.move limits call epoch m = some (v', increments))
    (hv : v.watcher = .stopped true → v.cancelled = true) :
    v'.watcher = .stopped true → v'.cancelled = true := by
  cases m <;> simp only [Invocation.move] at h
  case request => cases h; exact fun _ => rfl
  case guest =>
    obtain ⟨phase, -, heq⟩ := Option.map_eq_some_iff.mp h
    cases heq
    exact hv
  case poll =>
    split at h
    · split at h
      · next hcancelled =>
        cases h
        exact fun _ => hcancelled
      · cases h
        rintro ⟨⟩
    · cases h
  case look =>
    split at h
    · cases h
      split <;> rintro ⟨⟩
    · cases h
  case start =>
    split at h
    · cases h
      rintro ⟨⟩
    · cases h
  all_goals
    split at h
    · cases h
      exact hv
    · cases h

/-- All that a step can do to a call whose token is active. -/
inductive Phase.Next (limits : WasmtimeExecutionLimits) (call : GuestCall α) (epoch : ℕ) :
    Phase α → Move → Phase α → Prop
  | same {phase : Phase α} {m : Move} : m ≠ .start → Next limits call epoch phase m phase
  | enter : Next limits call epoch .idle .enter .entered
  | start : Next limits call epoch .entered .start
      (.loading (epoch + limits.cancellationEpochDeadline.toNat) call.loading)
  | guest {phase phase' : Phase α} : Invocation.guestStep limits call epoch phase = some phase' →
    Next limits call epoch phase .guest phase'
  | tell {result : Except PureflowError α} {looks : Bool} :
    Next limits call epoch (.returned result looks) .tell (.closing result looks)
  | join {result : Except PureflowError α} {looks : Bool} :
    Next limits call epoch (.closing result looks) .join (.finished result)

/-- **Inversion** of a step that leaves the token of its call active. -/
lemma move_cases (h : v.move limits call epoch m = some (v', increments))
    (hwatcher : v.watcher = .stopped true → v.cancelled = true) (hactive : v'.cancelled = false) :
    increments = false ∧ v.cancelled = false ∧ v.phase.Next limits call epoch m v'.phase := by
  cases m <;> simp only [Invocation.move] at h
  case request =>
    cases h
    cases hactive
  case enter =>
    split at h
    · next hphase =>
      cases h
      simp only at hactive
      simp only [hphase, hactive, Bool.false_eq_true, if_false]
      exact ⟨trivial, trivial, .enter⟩
    · cases h
  case start =>
    split at h
    · next hphase =>
      cases h
      rw [hphase]
      exact ⟨rfl, hactive, .start⟩
    · cases h
  case guest =>
    obtain ⟨phase, hphase, heq⟩ := Option.map_eq_some_iff.mp h
    cases heq
    exact ⟨rfl, hactive, .guest hphase⟩
  case tell =>
    split at h
    · next hphase =>
      cases h
      rw [hphase]
      exact ⟨rfl, hactive, .tell⟩
    · cases h
  case look =>
    split at h
    · cases h
      exact ⟨rfl, hactive, .same (by decide)⟩
    · cases h
  case poll =>
    split at h
    · split at h
      · next hcancelled =>
        cases h
        exact absurd (hcancelled.symm.trans hactive) (by decide)
      · cases h
        exact ⟨rfl, hactive, .same (by decide)⟩
    · cases h
  case join =>
    split at h
    · next hphase hstopped =>
      cases h
      rename_i interrupted
      have hquiet : interrupted = false := by
        cases interrupted with
        | false => rfl
        | true => exact absurd ((hwatcher hstopped).symm.trans hactive) (by decide)
      rw [hphase, hquiet, Bool.and_false, if_neg Bool.false_ne_true]
      exact ⟨rfl, hactive, .join⟩
    · cases h

variable {phase phase' : Phase α}

lemma guestStep_undisturbed (h : Invocation.guestStep limits call epoch phase = some phase')
    (hphase : phase.Undisturbed limits call epoch) : phase'.Undisturbed limits call epoch := by
  unfold Invocation.guestStep at h
  split at h
  · next deadline left =>
    have hahead : ¬ deadline ≤ epoch := fun hle => hphase ⟨by omega, hle⟩
    rw [if_neg hahead] at h
    cases h
    exact fun hover => hahead hover.2
  · next deadline =>
    cases hended : call.ended with
    | error err =>
      rw [hended] at h
      cases h
      simp only [Phase.Undisturbed, GuestCall.answer, hended]
      rfl
    | ok outcome =>
      rw [hended] at h
      cases h
      rintro ⟨hleft, hle⟩
      refine hphase ⟨?_, hle⟩
      rwa [GuestCall.later, hended, Nat.zero_add]
  · next deadline left =>
    have hahead : ¬ deadline ≤ epoch := fun hle => hphase ⟨by omega, hle⟩
    rw [if_neg hahead] at h
    cases h
    exact fun hover => hahead hover.2
  · cases h
    exact rfl
  · cases h

lemma guestStep_interrupted (h : Invocation.guestStep limits call epoch phase = some phase')
    (hphase : phase.Interrupted limits call epoch) : phase'.Interrupted limits call epoch := by
  unfold Invocation.guestStep at h
  split at h
  · rw [if_pos hphase.2] at h
    cases h
    exact .inl rfl
  · next deadline =>
    obtain ⟨hleft, hle⟩ := hphase
    cases hended : call.ended with
    | error err =>
      rw [GuestCall.later, hended] at hleft
      cases hleft
    | ok outcome =>
      rw [hended] at h
      cases h
      rw [GuestCall.later, hended, Nat.zero_add] at hleft
      exact ⟨hleft, hle⟩
  · rw [if_pos hphase.2] at h
    cases h
    exact .inr ⟨_, rfl⟩
  · cases hphase.1
  · cases h

/-- A step of its own keeps a call undisturbed, provided it starts with a deadline ahead. -/
lemma Phase.Next.undisturbed (h : phase.Next limits call epoch m phase')
    (hphase : phase.Undisturbed limits call epoch)
    (hstart : m = .start → ¬ Phase.Overdue call epoch
      (.loading (epoch + limits.cancellationEpochDeadline.toNat) call.loading)) :
    phase'.Undisturbed limits call epoch := by
  cases h with
  | same _ => exact hphase
  | enter => exact not_false
  | start => exact hstart rfl
  | guest hguest => exact guestStep_undisturbed hguest hphase
  | tell => exact hphase
  | join => exact hphase

lemma Phase.Next.interrupted (h : phase.Next limits call epoch m phase')
    (hphase : phase.Interrupted limits call epoch ∨ m = .start ∧ Phase.Overdue call epoch
      (.loading (epoch + limits.cancellationEpochDeadline.toNat) call.loading)) :
    phase'.Interrupted limits call epoch := by
  rcases hphase with hphase | ⟨rfl, hover⟩
  · cases h with
    | same _ => exact hphase
    | enter => cases hphase
    | start => cases hphase
    | guest hguest => exact guestStep_interrupted hguest hphase
    | tell => exact hphase
    | join => exact hphase
  · cases h with
    | same hne => exact absurd rfl hne
    | start => exact hover

lemma undisturbed_tick (hphase : phase.Undisturbed limits call epoch)
    (hahead : ¬ phase.Overdue call (epoch + 1)) :
    phase.Undisturbed limits call (epoch + 1) := by
  cases phase with
  | returned | closing | finished => exact hphase
  | _ => exact hahead

lemma interrupted_tick (hphase : phase.Interrupted limits call epoch ∨
    phase.Overdue call (epoch + 1)) : phase.Interrupted limits call (epoch + 1) := by
  rcases hphase with hphase | hover
  · cases phase with
    | returned | closing | finished => exact hphase
    | loading deadline left => exact ⟨hphase.1, Nat.le_succ_of_le hphase.2⟩
    | calling deadline left => exact ⟨hphase.1, Nat.le_succ_of_le hphase.2⟩
    | idle | entered => cases hphase
  · cases phase with
    | loading | calling => exact hover
    | _ => cases hover

end Verdict

section Isolation

variable {ι α : Type} [DecidableEq ι] (limits : WasmtimeExecutionLimits) (calls : ι → GuestCall α)

/-- The step does not take the deadline of this call: the call starts with its deadline ahead, and
where a watcher is about to increment the epoch, the guest of the call does not reach its deadline
by that, or looks at the epoch no more. -/
def Spares (i : ι) (s : SharedEngine ι α) : ι × Move → Prop
  | (j, .start) => j = i → ¬ Phase.Overdue (calls i) s.epoch
    (.loading (s.epoch + limits.cancellationEpochDeadline.toNat) (calls i).loading)
  | (j, .poll) => (s.invocations j).watcher = .looked → (s.invocations j).cancelled = true →
    ¬ (s.invocations i).phase.Overdue (calls i) (s.epoch + 1)
  | _ => True

/-- Every step of the run spares the call. -/
def Spared (i : ι) (actions : List (ι × Move)) : Prop :=
  ∀ before action after s, actions = before ++ action :: after →
    Reaches (SharedEngine.next limits calls) .fresh before s → Spares limits calls i s action

variable {limits calls} {actions before : List (ι × Move)} {action : ι × Move}
  {s s' : SharedEngine ι α} {i : ι}

lemma spared_append (hrun : Reaches (SharedEngine.next limits calls) .fresh before s) :
    Spared limits calls i (before ++ [action]) ↔
      Spared limits calls i before ∧ Spares limits calls i s action := by
  constructor
  · intro h
    refine ⟨fun first a rest mid heq hmid => ?_, h before action [] s rfl hrun⟩
    exact h first a (rest ++ [action]) mid (by rw [heq]; simp) hmid
  · rintro ⟨hbefore, hlast⟩ first a rest mid heq hmid
    cases rest using List.reverseRecOn with
    | nil =>
      obtain ⟨rfl, hsame⟩ := List.append_inj' heq rfl
      obtain rfl := List.singleton_inj.mp hsame
      obtain rfl := Option.some.inj (hrun.symm.trans hmid)
      exact hlast
    | append_singleton rest' last =>
      refine hbefore first a rest' mid ?_ hmid
      rw [← List.cons_append, ← List.append_assoc] at heq
      exact (List.append_inj' heq rfl).1

/-- What a run has made of every call. -/
structure Judged (limits : WasmtimeExecutionLimits) (calls : ι → GuestCall α)
    (actions : List (ι × Move)) (s : SharedEngine ι α) : Prop where
  reached : Reaches (SharedEngine.next limits calls) .fresh actions s
  watchers (i : ι) : (s.invocations i).watcher = .stopped true → (s.invocations i).cancelled = true
  undisturbed (i : ι) : (s.invocations i).cancelled = false → Spared limits calls i actions →
    (s.invocations i).phase.Undisturbed limits (calls i) s.epoch
  interrupted (i : ι) : (s.invocations i).cancelled = false → ¬ Spared limits calls i actions →
    (s.invocations i).phase.Interrupted limits (calls i) s.epoch

lemma judged_fresh : Judged limits calls [] (.fresh : SharedEngine ι α) where
  reached := by simp
  watchers i := by rintro ⟨⟩
  undisturbed i _ _ := not_false
  interrupted i _ hspared := by
    refine absurd (fun before action after s heq _ => ?_) hspared
    simp at heq

omit [DecidableEq ι] in
/-- A step of its own spares a call unless it starts with its deadline reached. -/
lemma spares_own {m : Move} (hactive : (s.invocations i).cancelled = false) :
    Spares limits calls i s (i, m) ↔ (m = .start → ¬ Phase.Overdue (calls i) s.epoch
      (.loading (s.epoch + limits.cancellationEpochDeadline.toNat) (calls i).loading)) := by
  cases m with
  | start => exact ⟨fun h _ => h rfl, fun h _ => h rfl⟩
  | poll => exact ⟨fun _ h => (by cases h), fun _ _ h => (by rw [hactive] at h; cases h)⟩
  | _ => exact ⟨fun _ h => (by cases h), fun _ => trivial⟩

omit [DecidableEq ι] in
/-- A step of another call spares a call unless it increments the epoch. -/
lemma spares_other {j : ι} {m : Move} {v' : Invocation α} {increments : Bool} (hne : j ≠ i)
    (hmove : (s.invocations j).move limits (calls j) s.epoch m = some (v', increments)) :
    Spares limits calls i s (j, m) ↔
      (increments = true → ¬ (s.invocations i).phase.Overdue (calls i) (s.epoch + 1)) := by
  have hincrements : increments = true ↔ m = .poll ∧ (s.invocations j).watcher = .looked ∧
      (s.invocations j).cancelled = true := by
    cases m <;> simp only [Invocation.move] at hmove
    case poll =>
      split at hmove
      · next hlooked =>
        split at hmove
        · next hcancelled =>
          cases hmove
          simp [hlooked, hcancelled]
        · next hcancelled =>
          cases hmove
          simp [hcancelled]
      · cases hmove
    case request =>
      cases hmove
      simp
    case guest =>
      obtain ⟨_, -, heq⟩ := Option.map_eq_some_iff.mp hmove
      cases heq
      simp
    all_goals
      split at hmove
      · cases hmove
        simp
      · cases hmove
  rw [hincrements]
  cases m with
  | start => exact ⟨fun _ h => (by cases h.1), fun _ h => absurd h hne⟩
  | poll => exact ⟨fun h h' => h h'.2.1 h'.2.2, fun h hl hc => h ⟨rfl, hl, hc⟩⟩
  | _ => exact ⟨fun _ h => (by cases h.1), fun _ => trivial⟩

/-- **One step.** -/
lemma judged_next (h : Judged limits calls before s)
    (hnext : s.next limits calls action = some s') :
    Judged limits calls (before ++ [action]) s' := by
  obtain ⟨j, m⟩ := action
  have hreached : Reaches (SharedEngine.next limits calls) .fresh (before ++ [(j, m)]) s' :=
    h.reached.concat hnext
  obtain ⟨⟨v', increments⟩, hmove, rfl⟩ := Option.map_eq_some_iff.mp hnext
  simp only at hmove
  -- the call whose step it is
  have hown (hactive : v'.cancelled = false) :=
    move_cases hmove (h.watchers j) hactive
  refine ⟨hreached, fun i => ?_, fun i hactive hall => ?_, fun i hactive hnot => ?_⟩
  · rcases eq_or_ne i j with rfl | hne
    · simp only [Function.update_self]
      exact move_watcher hmove (h.watchers i)
    · simp only [Function.update_of_ne hne]
      exact h.watchers i
  · obtain ⟨hbefore, hlast⟩ := (spared_append h.reached).mp hall
    rcases eq_or_ne i j with rfl | hne
    · simp only [Function.update_self] at hactive ⊢
      obtain ⟨rfl, hwas, hphase⟩ := hown hactive
      exact hphase.undisturbed (h.undisturbed i hwas hbefore) ((spares_own hwas).mp hlast)
    · simp only [Function.update_of_ne hne] at hactive ⊢
      have hphase := h.undisturbed i hactive hbefore
      cases increments with
      | false => exact hphase
      | true => exact undisturbed_tick hphase ((spares_other hne.symm hmove).mp hlast rfl)
  · have hnot : ¬ Spared limits calls i before ∨
        Spared limits calls i before ∧ ¬ Spares limits calls i s (j, m) := by
      rw [spared_append h.reached, not_and_or] at hnot
      tauto
    rcases eq_or_ne i j with rfl | hne
    · simp only [Function.update_self] at hactive ⊢
      obtain ⟨rfl, hwas, hphase⟩ := hown hactive
      refine hphase.interrupted (hnot.imp (h.interrupted i hwas) fun ⟨_, hlast⟩ => ?_)
      rw [spares_own hwas] at hlast
      tauto
    · simp only [Function.update_of_ne hne] at hactive ⊢
      have hlast : Spares limits calls i _ (j, _) ↔ _ := spares_other hne.symm hmove
      cases increments with
      | false =>
        refine h.interrupted i hactive fun hbefore => ?_
        rcases hnot with hnot | ⟨-, hnot⟩
        · exact hnot hbefore
        · exact hnot (hlast.mpr (by rintro ⟨⟩))
      | true =>
        refine interrupted_tick (hnot.imp (h.interrupted i hactive) fun ⟨_, hnot⟩ => ?_)
        rw [hlast] at hnot
        tauto

/-- **Isolation, exactly.** In every run of any number of calls on one engine, a finished call
whose own token is active has returned what its guest returns if every step of the run spared it,
and otherwise the error of an interrupted store. -/
theorem isolated_iff_spared (limits : WasmtimeExecutionLimits) (calls : ι → GuestCall α)
    (actions : List (ι × Move)) (s : SharedEngine ι α)
    (hrun : Reaches (SharedEngine.next limits calls) .fresh actions s) (i : ι)
    (hactive : (s.invocations i).cancelled = false) (result : Except PureflowError α)
    (hfinished : (s.invocations i).phase = .finished result) :
    (Spared limits calls i actions → result = (calls i).answer limits) ∧
    (¬ Spared limits calls i actions → (calls i).IsTrap limits result) ∧
    ∀ value, (calls i).answer limits = .ok value →
      (result = .ok value ↔ Spared limits calls i actions) := by
  have hjudged : Judged limits calls actions s :=
    hrun.invariant judged_fresh fun _ _ _ _ h hnext => judged_next h hnext
  have hspared : Spared limits calls i actions → result = (calls i).answer limits := by
    intro h
    have := hjudged.undisturbed i hactive h
    rwa [hfinished] at this
  have hnot : ¬ Spared limits calls i actions → (calls i).IsTrap limits result := by
    intro h
    have := hjudged.interrupted i hactive h
    rwa [hfinished] at this
  refine ⟨hspared, hnot, fun value hvalue => ⟨fun hresult => ?_, fun h => ?_⟩⟩
  · by_contra h
    obtain htrap | ⟨left, htrap⟩ := hnot h <;> cases hresult.symm.trans htrap
  · rw [hspared h, hvalue]

end Isolation

section Sample

def sampleDecision : Rules.RuleDecision := ⟨.drop, none, [], []⟩

/-- Two evaluations on one component; the guest looks at the epoch once. -/
def sampleCalls (_ : Bool) : GuestCall Rules.RuleDecision :=
  droppingComponent.guestCall droppingNode.ruleSet
    (buildHostContext Rules.RuleNode.sampleContext System.samplePacket) ⟨"operator stop"⟩ 0 1
    "wasm trap: interrupt" fun _ => some 1

/-- Both calls start, and the watcher of the second one sees that it was cancelled; then the first
one runs to its end. -/
def interferingActions (guestSteps : ℕ) : List (Bool × Move) :=
  [(false, .enter), (false, .start), (true, .enter), (true, .start), (true, .request),
    (true, .look), (true, .poll)] ++ List.replicate guestSteps (false, .guest) ++
    [(false, .tell), (false, .look), (false, .join)]

lemma sampleCalls_answer (limits : WasmtimeExecutionLimits) (i : Bool) :
    (sampleCalls i).answer limits = .ok sampleDecision := by
  rfl

/-- With a deadline of two ticks the first call is spared. -/
theorem isolated_iff_spared_sample :
    Spared ⟨1000, 2⟩ sampleCalls false (interferingActions 3) := by
  obtain ⟨s, hrun, hactive, hfinished⟩ : ∃ s : SharedEngine Bool Rules.RuleDecision,
      Reaches (SharedEngine.next ⟨1000, 2⟩ sampleCalls) .fresh (interferingActions 3) s ∧
      (s.invocations false).cancelled = false ∧
      (s.invocations false).phase = .finished (.ok sampleDecision) :=
    ⟨_, rfl, rfl, rfl⟩
  exact ((isolated_iff_spared _ _ _ s hrun false hactive _ hfinished).2.2 sampleDecision
    (sampleCalls_answer _ _)).mp rfl

/-- **Calls interrupt each other**: with a deadline of one tick, the default, the cancellation of
the second call makes the first one fail. -/
theorem cancellation_interrupts_another : ¬ ∀ (limits : WasmtimeExecutionLimits)
    (calls : Bool → GuestCall Rules.RuleDecision) (actions : List (Bool × Move))
    (s : SharedEngine Bool Rules.RuleDecision),
    Reaches (SharedEngine.next limits calls) .fresh actions s →
    ∀ i, (s.invocations i).cancelled = false → ∀ result,
    (s.invocations i).phase = .finished result → ∀ value,
    (calls i).answer limits = .ok value → result = .ok value := by
  intro hall
  obtain ⟨s, hrun, hactive, hfinished⟩ : ∃ s : SharedEngine Bool Rules.RuleDecision,
      Reaches (SharedEngine.next ⟨1000, 1⟩ sampleCalls) .fresh (interferingActions 2) s ∧
      (s.invocations false).cancelled = false ∧
      (s.invocations false).phase =
        .finished (.error ((sampleCalls false).guestTrap ⟨1000, 1⟩ 0)) :=
    ⟨_, rfl, rfl, rfl⟩
  cases hall _ _ _ s hrun false hactive _ hfinished sampleDecision (sampleCalls_answer _ _)

end Sample

end Pureflow.Wasm
