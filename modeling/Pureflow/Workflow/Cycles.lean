import Pureflow.Workflow.Sorting

/-!
The cycle that is reported for a graph with a cycle.

The search is depth-first over the nodes that Kahn's loop left over, with the nodes being visited
on a stack. Its recursion is given here without fuel, as the calls that end; the fuel of the model
suffices for them. A finished node has only finished children among the left over ones, so no walk
from it goes on for ever; the nodes of a cycle are all left over, so the search cannot finish them
and must find an edge back to the stack.
-/

namespace Pureflow.Workflow

open Std Relation Pureflow.Types Pureflow.Lib.Digraph Pureflow.Lib.Result GraphTopology

section Explores

def GraphTopology.Search.enter (s : Search) (nodeId : NodeId) : Search :=
  ⟨s.states.insert nodeId .visiting, s.stack ++ [nodeId]⟩

def GraphTopology.Search.leave (s : Search) (nodeId : NodeId) : Search :=
  ⟨s.states.insert nodeId .visited, s.stack.dropLast⟩

/-- What is left to do in the search: a call on a node, the rest of the loop over its children, or
the rest of the loop over the roots. -/
inductive SearchTask
  | node (nodeId : NodeId)
  | children (rest : List NodeId)
  | roots (rest : List NodeId)

/-- **The search, without fuel**: the tasks that end, with what they return and leave. There is one
rule for each way through the source. -/
inductive Explores (t : GraphTopology) (remaining : ExtTreeSet NodeId) :
    SearchTask → Search → Option (List NodeId) × Search → Prop
  | unknown {v : NodeId} {s : Search} : t.outgoingByNode[v]? = none →
    Explores t remaining (.node v) s (none, (s.enter v).leave v)
  | found {v : NodeId} {s s' : Search} {children : ExtTreeSet NodeId} {cycle : List NodeId} :
    t.outgoingByNode[v]? = some children →
    Explores t remaining (.children children.toList) (s.enter v) (some cycle, s') →
    Explores t remaining (.node v) s (some cycle, s')
  | finished {v : NodeId} {s s' : Search} {children : ExtTreeSet NodeId} :
    t.outgoingByNode[v]? = some children →
    Explores t remaining (.children children.toList) (s.enter v) (none, s') →
    Explores t remaining (.node v) s (none, s'.leave v)
  | noChild {s : Search} : Explores t remaining (.children []) s (none, s)
  | listed {child : NodeId} {rest : List NodeId} {s : Search} {r : Option (List NodeId) × Search} :
    child ∉ remaining → Explores t remaining (.children rest) s r →
    Explores t remaining (.children (child :: rest)) s r
  | back {child : NodeId} {rest : List NodeId} {s : Search} {cycle : List NodeId} :
    child ∈ remaining → s.states[child]? = some .visiting →
    cycleFromStack s.stack child = some cycle →
    Explores t remaining (.children (child :: rest)) s (some cycle, s)
  | offStack {child : NodeId} {rest : List NodeId} {s : Search}
      {r : Option (List NodeId) × Search} :
    child ∈ remaining → s.states[child]? = some .visiting →
    cycleFromStack s.stack child = none → Explores t remaining (.children rest) s r →
    Explores t remaining (.children (child :: rest)) s r
  | visited {child : NodeId} {rest : List NodeId} {s : Search} {r : Option (List NodeId) × Search} :
    child ∈ remaining → s.states[child]? = some .visited →
    Explores t remaining (.children rest) s r →
    Explores t remaining (.children (child :: rest)) s r
  | childFound {child : NodeId} {rest : List NodeId} {s s' : Search} {cycle : List NodeId} :
    child ∈ remaining → s.states[child]? = none →
    Explores t remaining (.node child) s (some cycle, s') →
    Explores t remaining (.children (child :: rest)) s (some cycle, s')
  | childFinished {child : NodeId} {rest : List NodeId} {s s' : Search}
      {r : Option (List NodeId) × Search} :
    child ∈ remaining → s.states[child]? = none →
    Explores t remaining (.node child) s (none, s') → Explores t remaining (.children rest) s' r →
    Explores t remaining (.children (child :: rest)) s r
  | noRoot {s : Search} : Explores t remaining (.roots []) s (none, s)
  | skipped {v : NodeId} {rest : List NodeId} {s : Search} {r : Option (List NodeId) × Search} :
    v ∉ remaining ∨ v ∈ s.states → Explores t remaining (.roots rest) s r →
    Explores t remaining (.roots (v :: rest)) s r
  | rootFound {v : NodeId} {rest : List NodeId} {s s' : Search} {cycle : List NodeId} :
    ¬ (v ∉ remaining ∨ v ∈ s.states) → Explores t remaining (.node v) s (some cycle, s') →
    Explores t remaining (.roots (v :: rest)) s (some cycle, s')
  | rootFinished {v : NodeId} {rest : List NodeId} {s s' : Search}
      {r : Option (List NodeId) × Search} :
    ¬ (v ∉ remaining ∨ v ∈ s.states) → Explores t remaining (.node v) s (none, s') →
    Explores t remaining (.roots rest) s' r → Explores t remaining (.roots (v :: rest)) s r

variable {t : GraphTopology} {remaining : ExtTreeSet NodeId} {task : SearchTask} {s : Search}
  {r r' : Option (List NodeId) × Search}

lemma Explores.unique (h : Explores t remaining task s r) (h' : Explores t remaining task s r') :
    r = r' := by
  induction h generalizing r' with
  | unknown hnone =>
    cases h' with
    | unknown => rfl
    | found hsome | finished hsome => simp [hnone] at hsome
  | found hsome _ ih =>
    cases h' with
    | unknown hnone => simp [hsome] at hnone
    | found hsome' hrest =>
      obtain rfl := Option.some.inj (hsome.symm.trans hsome')
      exact ih hrest
    | finished hsome' hrest =>
      obtain rfl := Option.some.inj (hsome.symm.trans hsome')
      cases ih hrest
  | finished hsome _ ih =>
    cases h' with
    | unknown hnone => simp [hsome] at hnone
    | found hsome' hrest =>
      obtain rfl := Option.some.inj (hsome.symm.trans hsome')
      cases ih hrest
    | finished hsome' hrest =>
      obtain rfl := Option.some.inj (hsome.symm.trans hsome')
      cases ih hrest
      rfl
  | noChild =>
    cases h'
    rfl
  | listed hnot _ ih =>
    cases h' with
    | listed _ hrest => exact ih hrest
    | _ => contradiction
  | back hmem hstate hcycle =>
    cases h' with
    | back _ _ hcycle' => simp_all
    | _ => simp_all
  | offStack hmem hstate hcycle _ ih =>
    cases h' with
    | offStack _ _ _ hrest => exact ih hrest
    | _ => simp_all
  | visited hmem hstate _ ih =>
    cases h' with
    | visited _ _ hrest => exact ih hrest
    | _ => simp_all
  | childFound hmem hstate _ ih =>
    cases h' with
    | childFound _ _ hnode => exact ih hnode
    | childFinished _ _ hnode => cases ih hnode
    | _ => simp_all
  | childFinished hmem hstate _ _ ihnode ih =>
    cases h' with
    | childFound _ _ hnode => cases ihnode hnode
    | childFinished _ _ hnode hrest =>
      cases ihnode hnode
      exact ih hrest
    | _ => simp_all
  | noRoot =>
    cases h'
    rfl
  | skipped hskip _ ih =>
    cases h' with
    | skipped _ hrest => exact ih hrest
    | _ => contradiction
  | rootFound hroot _ ih =>
    cases h' with
    | rootFound _ hnode => exact ih hnode
    | rootFinished _ hnode => cases ih hnode
    | skipped => contradiction
  | rootFinished hroot _ _ ihnode ih =>
    cases h' with
    | rootFound _ hnode => cases ihnode hnode
    | rootFinished _ hnode hrest =>
      cases ihnode hnode
      exact ih hrest
    | skipped => contradiction

end Explores

section Fuel

variable {t : GraphTopology} {remaining : ExtTreeSet NodeId} {task : SearchTask} {s : Search}
  {r : Option (List NodeId) × Search}

/-- How many of the left over nodes have no state. -/
def unseen (remaining : ExtTreeSet NodeId) (s : Search) : ℕ :=
  remaining.toList.countP (· ∉ s.states)

lemma unseen_le {s s' : Search} (h : ∀ v ∈ s.states, v ∈ s'.states) :
    unseen remaining s' ≤ unseen remaining s := by
  refine List.countP_mono_left fun v _ hv => ?_
  simp only [decide_eq_true_eq] at hv ⊢
  exact fun hs => hv (h v hs)

lemma mem_states_enter {v w : NodeId} : w ∈ (s.enter v).states ↔ v = w ∨ w ∈ s.states := by
  rw [Search.enter, ExtTreeMap.mem_insert, Std.compare_eq_iff_eq]

lemma mem_states_leave {v w : NodeId} : w ∈ (s.leave v).states ↔ v = w ∨ w ∈ s.states := by
  rw [Search.leave, ExtTreeMap.mem_insert, Std.compare_eq_iff_eq]

lemma unseen_enter {v : NodeId} (hv : v ∈ remaining) (hnew : v ∉ s.states) :
    unseen remaining (s.enter v) < unseen remaining s := by
  unfold unseen
  obtain ⟨before, after, hsplit⟩ := List.append_of_mem (ExtTreeSet.mem_toList.mpr hv)
  have hle (l : List NodeId) :
      l.countP (· ∉ (s.enter v).states) ≤ l.countP (· ∉ s.states) := by
    refine List.countP_mono_left fun w _ hw => ?_
    simp only [decide_eq_true_eq, mem_states_enter, not_or] at hw ⊢
    exact hw.2
  have hbefore := hle before
  have hafter := hle after
  have hentered : v ∈ (s.enter v).states := mem_states_enter.mpr (.inl rfl)
  rw [hsplit, List.countP_append, List.countP_append, List.countP_cons, List.countP_cons]
  simp only [hnew, hentered, not_true, not_false_eq_true, decide_true, decide_false, if_true]
  simp only [Bool.false_eq_true, if_false]
  omega

lemma Explores.states_mono (h : Explores t remaining task s r) : ∀ v ∈ s.states, v ∈ r.2.states := by
  induction h with
  | unknown =>
    intro v hv
    exact mem_states_leave.mpr (.inr (mem_states_enter.mpr (.inr hv)))
  | found _ _ ih => exact fun v hv => ih v (mem_states_enter.mpr (.inr hv))
  | finished _ _ ih =>
    exact fun v hv => mem_states_leave.mpr (.inr (ih v (mem_states_enter.mpr (.inr hv))))
  | noChild | noRoot | back => exact fun v hv => hv
  | listed _ _ ih | offStack _ _ _ _ ih | visited _ _ _ ih | childFound _ _ _ ih
  | skipped _ _ ih | rootFound _ _ ih => exact ih
  | childFinished _ _ _ _ ihnode ih | rootFinished _ _ _ ihnode ih =>
    exact fun v hv => ih v (ihnode v hv)

lemma explores_children {fuel : ℕ}
    (hnode : ∀ v s, v ∈ remaining → v ∉ s.states → unseen remaining s ≤ fuel →
      Explores t remaining (.node v) s (t.dfs remaining fuel v s)) (rest : List NodeId)
    (hfuel : unseen remaining s ≤ fuel) :
    Explores t remaining (.children rest) s
      (searchChildren remaining (t.dfs remaining fuel) rest s) := by
  induction rest generalizing s with
  | nil => exact .noChild
  | cons child rest ih =>
    unfold searchChildren
    by_cases hmem : child ∈ remaining
    · rw [if_neg (not_not_intro hmem)]
      cases hstate : s.states[child]? with
      | some state =>
        cases state with
        | visiting =>
          dsimp only
          cases hcycle : cycleFromStack s.stack child with
          | some cycle => exact .back hmem hstate hcycle
          | none => exact .offStack hmem hstate hcycle (ih hfuel)
        | visited => exact .visited hmem hstate (ih hfuel)
      | none =>
        have hnew : child ∉ s.states := by
          rw [ExtTreeMap.mem_iff_isSome_getElem?, hstate]
          exact Bool.false_ne_true
        have hcall := hnode child s hmem hnew hfuel
        dsimp only
        generalize t.dfs remaining fuel child s = result at hcall
        obtain ⟨_ | cycle, s'⟩ := result
        · have hless : unseen remaining s' ≤ unseen remaining s := unseen_le hcall.states_mono
          exact .childFinished hmem hstate hcall (ih (hless.trans hfuel))
        · exact .childFound hmem hstate hcall
    · rw [if_pos hmem]
      exact .listed hmem (ih hfuel)

/-- **A call ends**, and the model computes what it returns with fuel for the nodes without a
state. -/
lemma explores_dfs (fuel : ℕ) {v : NodeId} (hv : v ∈ remaining) (hnew : v ∉ s.states)
    (hfuel : unseen remaining s ≤ fuel) :
    Explores t remaining (.node v) s (t.dfs remaining fuel v s) := by
  induction fuel generalizing v s with
  | zero =>
    have hless := unseen_enter hv hnew
    omega
  | succ fuel ih =>
    unfold dfs
    dsimp only
    cases hchildren : t.outgoingByNode[v]? with
    | none => exact .unknown hchildren
    | some children =>
      have hless := unseen_enter hv hnew
      have hloop := explores_children (fun w s hw hs hle => ih hw hs hle) children.toList
        (show unseen remaining (s.enter v) ≤ fuel by omega)
      dsimp only [Search.enter] at hloop ⊢
      generalize searchChildren remaining _ children.toList _ = result at hloop ⊢
      obtain ⟨_ | cycle, s'⟩ := result
      · exact .finished hchildren hloop
      · exact .found hchildren hloop

/-- **The search ends**, and the model computes what it returns. -/
lemma explores_roots (roots : List NodeId) :
    ∃ s', Explores t remaining (.roots roots) s (t.searchRoots remaining roots s, s') := by
  induction roots generalizing s with
  | nil => exact ⟨s, .noRoot⟩
  | cons v rest ih =>
    unfold searchRoots
    by_cases hskip : v ∉ remaining ∨ v ∈ s.states
    · obtain ⟨s', hs'⟩ := ih (s := s)
      rw [if_pos hskip]
      exact ⟨s', .skipped hskip hs'⟩
    · rw [if_neg hskip]
      have hsize : unseen remaining s ≤ remaining.size := by
        rw [← ExtTreeSet.length_toList]
        exact List.countP_le_length
      have hroot := not_or.mp hskip
      have hcall := explores_dfs remaining.size (t := t) (not_not.mp hroot.1) hroot.2 hsize
      generalize t.dfs remaining remaining.size v s = result at hcall
      obtain ⟨_ | cycle, s₁⟩ := result
      · obtain ⟨s', hs'⟩ := ih (s := s₁)
        exact ⟨s', .rootFinished hskip hcall hs'⟩
      · exact ⟨s₁, .rootFound hskip hcall⟩

end Fuel

section Invariant

variable {nodes : List NodeDefinition} {edges : List EdgeDefinition} {t : GraphTopology}
  {remaining : ExtTreeSet NodeId} {s s' : Search} {v : NodeId}

/-- A directed cycle of the graph: from a node back to it, along edges, with no node twice. -/
structure RealCycle (edges : List EdgeDefinition) (cycle : List NodeId) : Prop where
  length : 2 ≤ cycle.length
  closed : cycle.head? = cycle.getLast?
  distinct : cycle.dropLast.Nodup
  joined : cycle.IsChain (Joins edges)

lemma cycleFromStack_real {stack : List NodeId} (hnodup : stack.Nodup)
    (hchain : stack.IsChain (Joins edges)) (hlast : stack.getLast? = some v) {child : NodeId}
    (hmem : child ∈ stack) (hjoins : Joins edges v child) :
    ∃ cycle, cycleFromStack stack child = some cycle ∧ RealCycle edges cycle := by
  obtain ⟨before, after, hstack, hnew⟩ := List.eq_append_cons_of_mem hmem
  have hindex : stack.findIdx? (· = child) = some before.length := by
    have hbefore : before.findIdx? (· = child) = none := by
      refine List.findIdx?_eq_none_iff.mpr fun u hu => ?_
      simpa using fun h : u = child => hnew (h ▸ hu)
    rw [hstack, List.findIdx?_append, hbefore]
    simp [List.findIdx?_cons]
  have hdrop : stack.drop before.length = child :: after := by
    rw [hstack, List.drop_left]
  refine ⟨child :: after ++ [child], ?_, ?_⟩
  · rw [cycleFromStack, hindex, Option.map_some, hdrop]
  · have hsuffix : (child :: after).IsChain (Joins edges) :=
      (List.isChain_append.mp (hstack ▸ hchain)).2.1
    have htop : (child :: after).getLast? = some v := by
      rw [hstack, List.getLast?_append_of_ne_nil _ (List.cons_ne_nil child after)] at hlast
      exact hlast
    constructor
    case length => simp
    case closed => rw [List.getLast?_concat]; rfl
    case distinct =>
      rw [List.dropLast_concat]
      exact (hstack ▸ hnodup).of_append_right
    case joined =>
      refine List.isChain_append.mpr ⟨hsuffix, .singleton child, fun x hx y hy => ?_⟩
      rw [htop, Option.mem_some_iff] at hx
      rw [List.head?_singleton, Option.mem_some_iff] at hy
      exact hx ▸ hy ▸ hjoins

/-- A left over child of a node lies below it. -/
def Below (edges : List EdgeDefinition) (remaining : ExtTreeSet NodeId) (w v : NodeId) : Prop :=
  Joins edges v w ∧ w ∈ remaining

/-- What holds between the steps of the search: the stack is a path of distinct nodes, those that
are being visited, and below a finished node every walk ends. -/
structure Searching (edges : List EdgeDefinition) (remaining : ExtTreeSet NodeId) (s : Search) :
    Prop where
  nodup : s.stack.Nodup
  path : s.stack.IsChain (Joins edges)
  visiting : ∀ v, s.states[v]? = some .visiting ↔ v ∈ s.stack
  visited : ∀ v, s.states[v]? = some .visited → Acc (Below edges remaining) v

lemma states_enter (w : NodeId) :
    (s.enter v).states[w]? = if v = w then some .visiting else s.states[w]? := by
  simp only [Search.enter, ExtTreeMap.getElem?_insert, Std.compare_eq_iff_eq]

lemma states_leave (w : NodeId) :
    (s.leave v).states[w]? = if v = w then some .visited else s.states[w]? := by
  simp only [Search.leave, ExtTreeMap.getElem?_insert, Std.compare_eq_iff_eq]

/-- A node without a state, joined to the top of the stack, may be visited. -/
lemma Searching.enter (h : Searching edges remaining s) (hnew : s.states[v]? = none)
    (htop : ∀ u ∈ s.stack.getLast?, Joins edges u v) : Searching edges remaining (s.enter v) := by
  have hoff : v ∉ s.stack := by
    intro hv
    rw [(h.visiting v).mpr hv] at hnew
    cases hnew
  constructor
  case nodup =>
    refine List.nodup_append.mpr ⟨h.nodup, List.nodup_singleton v, fun u hu w hw => ?_⟩
    rw [List.mem_singleton.mp hw]
    exact fun huv => hoff (huv ▸ hu)
  case path =>
    refine List.isChain_append.mpr ⟨h.path, .singleton v, fun u hu w hw => ?_⟩
    rw [List.head?_singleton, Option.mem_some_iff] at hw
    exact hw ▸ htop u hu
  case visiting =>
    intro w
    rw [states_enter, Search.enter, List.mem_append, List.mem_singleton, ← h.visiting]
    by_cases hvw : v = w
    · simp [hvw]
    · simp [hvw, Ne.symm hvw]
  case visited =>
    intro w hw
    rw [states_enter] at hw
    split_ifs at hw
    · cases hw
    · exact h.visited w hw

/-- A node on top of the stack is finished once all that lies below it is. -/
lemma Searching.leave (h : Searching edges remaining s') (hstack : s'.stack = s.stack ++ [v])
    (hbelow : ∀ w, Below edges remaining w v → s'.states[w]? = some .visited) :
    Searching edges remaining (s'.leave v) := by
  have hpopped : (s'.leave v).stack = s.stack := by
    rw [Search.leave, hstack, List.dropLast_concat]
  have hnodup : (s.stack ++ [v]).Nodup := hstack ▸ h.nodup
  have hoff : v ∉ s.stack := fun hv =>
    List.disjoint_of_nodup_append hnodup hv (List.mem_singleton_self v)
  have hpath : (s.stack ++ [v]).IsChain (Joins edges) := hstack ▸ h.path
  constructor
  case nodup => exact hpopped ▸ hnodup.of_append_left
  case path => exact hpopped ▸ (List.isChain_append.mp hpath).1
  case visiting =>
    intro w
    rw [hpopped, states_leave]
    by_cases hvw : v = w
    · subst hvw
      simp [hoff]
    · rw [if_neg hvw, h.visiting, hstack, List.mem_append, List.mem_singleton]
      exact or_iff_left (Ne.symm hvw)
  case visited =>
    intro w hw
    rw [states_leave] at hw
    split_ifs at hw with hvw
    · exact hvw ▸ .intro v fun x hx => h.visited x (hbelow x hx)
    · exact h.visited w hw

/-- The nodes that a task is about. -/
def SearchTask.targets : SearchTask → List NodeId
  | .node v => [v]
  | .children rest => rest
  | .roots rest => rest

/-- Where a task may begin. -/
def SearchTask.Begins (edges : List EdgeDefinition) (remaining : ExtTreeSet NodeId) (s : Search) :
    SearchTask → Prop
  | .node v => v ∈ remaining ∧ s.states[v]? = none ∧ ∀ u ∈ s.stack.getLast?, Joins edges u v
  | .children rest => ∃ v, s.stack.getLast? = some v ∧ ∀ w ∈ rest, Joins edges v w
  | .roots _ => s.stack = []

/-- What a task leaves that found no cycle: its nodes are finished, and the stack is as it was. -/
structure Finished (edges : List EdgeDefinition) (remaining : ExtTreeSet NodeId)
    (targets : List NodeId) (s s' : Search) : Prop where
  searching : Searching edges remaining s'
  stack : s'.stack = s.stack
  kept : ∀ v : NodeId, s.states[v]? = some .visited → s'.states[v]? = some .visited
  done : ∀ v ∈ targets, v ∈ remaining → s'.states[v]? = some .visited

/-- What a task must end in: a real cycle, or its nodes finished. -/
def Ends (edges : List EdgeDefinition) (remaining : ExtTreeSet NodeId) (targets : List NodeId)
    (s : Search) : Option (List NodeId) × Search → Prop
  | (some cycle, _) => RealCycle edges cycle
  | (none, s') => Finished edges remaining targets s s'

lemma Ends.cons {rest : List NodeId} {r : Option (List NodeId) × Search}
    (h : Ends edges remaining rest s r)
    (hv : v ∈ remaining → s.states[v]? = some .visited) : Ends edges remaining (v :: rest) s r := by
  obtain ⟨_ | cycle, s'⟩ := r
  · refine ⟨h.searching, h.stack, h.kept, fun w hw hmem => ?_⟩
    rcases List.mem_cons.mp hw with rfl | hw
    · exact h.kept w (hv hmem)
    · exact h.done w hw hmem
  · exact h

lemma Finished.cons {rest : List NodeId} {r : Option (List NodeId) × Search}
    (h : Finished edges remaining [v] s s') (hrest : Ends edges remaining rest s' r) :
    Ends edges remaining (v :: rest) s r := by
  obtain ⟨_ | cycle, s''⟩ := r
  · refine ⟨hrest.searching, hrest.stack.trans h.stack, fun w hw => hrest.kept w (h.kept w hw),
      fun w hw hmem => ?_⟩
    rcases List.mem_cons.mp hw with rfl | hw
    · exact hrest.kept w (h.done w (List.mem_singleton_self w) hmem)
    · exact hrest.done w hw hmem
  · exact hrest

/-- **What the search does**: every task finishes its nodes, or finds a real cycle. -/
lemma Explores.ends (hd : Describes nodes edges t) (hremaining : ∀ v ∈ remaining, v ∈ nodeIds nodes)
    {task : SearchTask} {r : Option (List NodeId) × Search} (h : Explores t remaining task s r)
    (hs : Searching edges remaining s) (hbegins : task.Begins edges remaining s) :
    Ends edges remaining task.targets s r := by
  have hchildren {v : NodeId} {children : ExtTreeSet NodeId} (hv : v ∈ remaining)
      (h : t.outgoingByNode[v]? = some children) (w : NodeId) :
      w ∈ children ↔ Joins edges v w := by
    obtain ⟨children', hsome, hmem⟩ := hd.outgoing v (hremaining v hv)
    obtain rfl := Option.some.inj (h.symm.trans hsome)
    exact hmem w
  have hloop {v : NodeId} {s : Search} {children : ExtTreeSet NodeId} (hv : v ∈ remaining)
      (h : t.outgoingByNode[v]? = some children) :
      (SearchTask.children children.toList).Begins edges remaining (s.enter v) := by
    refine ⟨v, List.getLast?_concat, fun w hw => ?_⟩
    exact (hchildren hv h w).mp (ExtTreeSet.mem_toList.mp hw)
  induction h with
  | @unknown v _ hnone =>
    obtain ⟨children, hsome, -⟩ := hd.outgoing v (hremaining v hbegins.1)
    rw [hnone] at hsome
    cases hsome
  | found hsome _ ih =>
    obtain ⟨hv, hnew, htop⟩ := hbegins
    exact ih (hs.enter hnew htop) (hloop hv hsome)
  | @finished v s s' children hsome _ ih =>
    obtain ⟨hv, hnew, htop⟩ := hbegins
    have hfinished : Finished edges remaining children.toList (s.enter v) s' :=
      ih (hs.enter hnew htop) (hloop hv hsome)
    refine ⟨hfinished.searching.leave hfinished.stack fun w hw => ?_, ?_, fun w hw => ?_,
      fun w hw _ => ?_⟩
    · have hmem : w ∈ children.toList :=
        ExtTreeSet.mem_toList.mpr ((hchildren hv hsome w).mpr hw.1)
      exact hfinished.done w hmem hw.2
    · rw [Search.leave, hfinished.stack, Search.enter, List.dropLast_concat]
    · rw [states_leave]
      split_ifs with hvw
      · rfl
      · refine hfinished.kept w ?_
        rw [states_enter, if_neg hvw]
        exact hw
    · rw [states_leave, if_pos (List.mem_singleton.mp hw).symm]
  | noChild | noRoot => exact ⟨hs, rfl, fun v hv => hv, fun v hv => by cases hv⟩
  | listed hnot _ ih =>
    obtain ⟨v, htop, hjoins⟩ := hbegins
    exact (ih hs ⟨v, htop, fun w hw => hjoins w (List.mem_cons_of_mem _ hw)⟩).cons
      fun hmem => absurd hmem hnot
  | @back child rest s cycle hmem hstate hcycle =>
    obtain ⟨v, htop, hjoins⟩ := hbegins
    obtain ⟨cycle', hcycle', hreal⟩ := cycleFromStack_real hs.nodup hs.path htop
      ((hs.visiting child).mp hstate) (hjoins child List.mem_cons_self)
    obtain rfl := Option.some.inj (hcycle.symm.trans hcycle')
    exact hreal
  | @offStack child rest s r hmem hstate hcycle _ ih =>
    -- a node that is being visited is on the stack
    obtain ⟨v, htop, hjoins⟩ := hbegins
    obtain ⟨cycle', hcycle', -⟩ := cycleFromStack_real hs.nodup hs.path htop
      ((hs.visiting child).mp hstate) (hjoins child List.mem_cons_self)
    rw [hcycle] at hcycle'
    cases hcycle'
  | visited hmem hstate _ ih =>
    obtain ⟨v, htop, hjoins⟩ := hbegins
    exact (ih hs ⟨v, htop, fun w hw => hjoins w (List.mem_cons_of_mem _ hw)⟩).cons fun _ => hstate
  | childFound hmem hstate _ ih =>
    obtain ⟨v, htop, hjoins⟩ := hbegins
    refine ih hs ⟨hmem, hstate, fun u hu => ?_⟩
    rw [htop, Option.mem_some_iff] at hu
    exact hu ▸ hjoins _ List.mem_cons_self
  | childFinished hmem hstate _ _ ihnode ih =>
    obtain ⟨v, htop, hjoins⟩ := hbegins
    have hnode : Finished edges remaining _ _ _ := ihnode hs ⟨hmem, hstate, fun u hu => by
      rw [htop, Option.mem_some_iff] at hu
      exact hu ▸ hjoins _ List.mem_cons_self⟩
    refine hnode.cons (ih hnode.searching ⟨v, hnode.stack ▸ htop, fun w hw => ?_⟩)
    exact hjoins w (List.mem_cons_of_mem _ hw)
  | @skipped v rest s r hskip _ ih =>
    refine (ih hs hbegins).cons fun hmem => ?_
    -- the stack is empty, so a node with a state is finished
    have hstates : v ∈ s.states := hskip.resolve_left (not_not_intro hmem)
    rw [ExtTreeMap.mem_iff_isSome_getElem?] at hstates
    obtain ⟨state, hstate⟩ := Option.isSome_iff_exists.mp hstates
    cases state with
    | visited => exact hstate
    | visiting =>
      have hstack : s.stack = [] := hbegins
      have hv := (hs.visiting v).mp hstate
      rw [hstack] at hv
      cases hv
  | @rootFound v rest s s' cycle hroot _ ih =>
    have hstack : s.stack = [] := hbegins
    obtain ⟨hmem, hnew⟩ := not_or.mp hroot
    refine ih hs ⟨not_not.mp hmem, ?_, by simp [hstack]⟩
    exact ExtTreeMap.getElem?_eq_none hnew
  | @rootFinished v rest s s' r hroot _ _ ihnode ih =>
    have hstack : s.stack = [] := hbegins
    obtain ⟨hmem, hnew⟩ := not_or.mp hroot
    have hnode : Finished edges remaining _ _ _ :=
      ihnode hs ⟨not_not.mp hmem, ExtTreeMap.getElem?_eq_none hnew, by simp [hstack]⟩
    exact hnode.cons (ih hnode.searching (hnode.stack.trans hstack))

end Invariant

/-- The nodes that Kahn's loop leaves over. -/
def GraphTopology.leftOver (t : GraphTopology) : ExtTreeSet NodeId :=
  .ofList (t.nodeIds.filter (· ∉ (t.drain t.indegreeByNode.size t.startSorting).order))

section Reported

variable {nodes : List NodeDefinition} {edges : List EdgeDefinition} {t : GraphTopology}

lemma mem_leftOver {v : NodeId} : v ∈ t.leftOver ↔
    v ∈ t.nodeIds ∧ v ∉ (t.drain t.indegreeByNode.size t.startSorting).order := by
  simp [leftOver, ExtTreeSet.mem_ofList]

lemma SortInv.not_cyclic {s : Sorting} (h : SortInv nodes edges s) {v : NodeId}
    (hv : v ∈ s.order) : ¬ TransGen (Joins edges) v v := by
  have hbefore {u w : NodeId} (huw : TransGen (Joins edges) u w) (hw : w ∈ s.order) :
      s.order.idxOf u < s.order.idxOf w := by
    induction huw with
    | single huw => exact h.idxOf_lt hw huw
    | tail _ hxw ih => exact (ih (h.preds_listed hw hxw)).trans (h.idxOf_lt hw hxw)
  exact fun hcyclic => lt_irrefl _ (hbefore hcyclic hv)

lemma leftOver_of_cyclic (hd : Describes nodes edges t) (he : EndpointsDeclared nodes edges)
    {v : NodeId} (hcyclic : TransGen (Joins edges) v v) : v ∈ t.leftOver := by
  obtain ⟨hinv, -⟩ := drain_start hd he
  obtain ⟨w, hvw, -⟩ := TransGen.head'_iff.mp hcyclic
  refine mem_leftOver.mpr ⟨hd.ids ▸ he.source_mem hvw, fun hv => ?_⟩
  exact hinv.not_cyclic hv hcyclic

/-- **The search finds a cycle**, where there is one. -/
lemma searchRoots_real (hd : Describes nodes edges t) (he : EndpointsDeclared nodes edges)
    {v : NodeId} (hcyclic : TransGen (Joins edges) v v) :
    ∃ cycle, t.searchRoots t.leftOver t.nodeIds ⟨∅, []⟩ = some cycle ∧ RealCycle edges cycle := by
  have hstart : Searching edges t.leftOver ⟨∅, []⟩ :=
    ⟨List.nodup_nil, .nil, by simp, by simp⟩
  have hremaining (w : NodeId) (hw : w ∈ t.leftOver) : w ∈ nodeIds nodes :=
    hd.ids ▸ (mem_leftOver.mp hw).1
  obtain ⟨s', hs'⟩ : ∃ s', Explores t t.leftOver (.roots t.nodeIds) ⟨∅, []⟩
      (t.searchRoots t.leftOver t.nodeIds ⟨∅, []⟩, s') := explores_roots t.nodeIds
  have hends := hs'.ends hd hremaining hstart rfl
  cases hresult : t.searchRoots t.leftOver t.nodeIds ⟨∅, []⟩ with
  | some cycle =>
    rw [hresult] at hends
    exact ⟨cycle, rfl, hends⟩
  | none =>
    rw [hresult] at hends
    have hfinished : Finished edges t.leftOver t.nodeIds ⟨∅, []⟩ s' := hends
    -- a node of the cycle is left over and finished, yet below it a walk goes on for ever
    have hv := leftOver_of_cyclic hd he hcyclic
    have hacc := hfinished.searching.visited v (hfinished.done v (mem_leftOver.mp hv).1 hv)
    have hall (w : NodeId) (hw : TransGen (Joins edges) w w) : w ∈ {w | w ∈ t.leftOver} :=
      leftOver_of_cyclic hd he hw
    exact absurd hcyclic (not_cyclic_of_acc hall hacc)

lemma build_eq_error {allowCycles : Bool} {err : WorkflowValidationError}
    (h : validate nodes edges allowCycles = .error err) :
    WorkflowGraph.build nodes edges allowCycles = .error err := by
  unfold WorkflowGraph.build
  split
  · next hok =>
    rw [h] at hok
    cases hok
  · next err' herr =>
    obtain rfl := Except.error.inj (h.symm.trans herr)
    rfl

/-- **A reported cycle is real.** For lists that pass the checks on nodes and endpoints and whose
graph has a directed cycle, validation reports a directed cycle of the graph: at least two nodes
long, closed, with no other repetition, and along edges. It is what the search returns, which ends
without fuel and in one way only, so the left over nodes are never reported in its place. -/
theorem reported_cycle_is_real (nodes : List NodeDefinition) (edges : List EdgeDefinition)
    (t : GraphTopology) (ht : fromGraph nodes edges = .ok t)
    (hcycle : ∃ v, TransGen (Joins edges) v v) :
    ∃ cycle, WorkflowGraph.new nodes edges = .error (.cycleDetected cycle) ∧
      2 ≤ cycle.length ∧ cycle.head? = cycle.getLast? ∧ cycle.dropLast.Nodup ∧
      cycle.IsChain (fun u v => ∃ edge ∈ edges, edge.source.nodeId = u ∧ edge.target.nodeId = v) ∧
      t.searchRoots t.leftOver t.nodeIds ⟨∅, []⟩ = some cycle ∧
      ∃ s, Explores t t.leftOver (.roots t.nodeIds) ⟨∅, []⟩ (some cycle, s) ∧
        ∀ r, Explores t t.leftOver (.roots t.nodeIds) ⟨∅, []⟩ r → r = (some cycle, s) := by
  obtain ⟨v, hcyclic⟩ := hcycle
  obtain ⟨hnd, he⟩ := fromGraph_ok.mp ⟨t, ht⟩
  have hd := describes_of_fromGraph ht
  obtain ⟨cycle, hsearch, hreal⟩ := searchRoots_real hd he hcyclic
  obtain ⟨s, hs⟩ : ∃ s, Explores t t.leftOver (.roots t.nodeIds) ⟨∅, []⟩
      (t.searchRoots t.leftOver t.nodeIds ⟨∅, []⟩, s) := explores_roots t.nodeIds
  rw [hsearch] at hs
  refine ⟨cycle, ?_, hreal.length, hreal.closed, hreal.distinct, ?_, hsearch, s, hs,
    fun r hr => hr.unique hs⟩
  · have herror : t.topologicalOrder = .error (.cycleDetected cycle) := by
      have hnot : ¬ ∃ order, t.topologicalOrder = .ok order := fun hok =>
        ((topologicalOrder_ok hd hnd he).mp hok).1 v hcyclic
      have hfind : t.findCycle t.leftOver = cycle := by
        rw [findCycle, hsearch, Option.getD_some]
      unfold topologicalOrder at hnot ⊢
      dsimp only at hnot ⊢
      split_ifs at hnot ⊢ with hlength
      · exact absurd ⟨_, rfl⟩ hnot
      · change Except.error (WorkflowValidationError.cycleDetected (t.findCycle t.leftOver)) = _
        rw [hfind]
    refine build_eq_error ?_
    rw [validate, ht]
    simp [herror, bind, Except.bind]
  · refine hreal.joined.imp fun u w huw => ?_
    obtain ⟨edge, hedge, hpair⟩ := List.mem_map.mp huw
    obtain ⟨hsource, htarget⟩ := Prod.mk.inj hpair
    exact ⟨edge, hedge, hsource, htarget⟩

end Reported

section Sample

/-- Two nodes on a cycle, the second one also on a cycle of its own. -/
def loopNodes : List NodeDefinition :=
  [⟨⟨"a", node_a_valid⟩, [⟨"in", port_in_valid⟩], [⟨"out", port_out_valid⟩], by decide⟩,
   ⟨⟨"b", node_b_valid⟩, [⟨"in", port_in_valid⟩], [⟨"out", port_out_valid⟩], by decide⟩]

def loopEdges : List EdgeDefinition :=
  [⟨⟨⟨"a", node_a_valid⟩, ⟨"out", port_out_valid⟩⟩,
     ⟨⟨"b", node_b_valid⟩, ⟨"in", port_in_valid⟩⟩, .default⟩,
   ⟨⟨⟨"b", node_b_valid⟩, ⟨"out", port_out_valid⟩⟩,
     ⟨⟨"b", node_b_valid⟩, ⟨"in", port_in_valid⟩⟩, .default⟩,
   ⟨⟨⟨"b", node_b_valid⟩, ⟨"out", port_out_valid⟩⟩,
     ⟨⟨"a", node_a_valid⟩, ⟨"in", port_in_valid⟩⟩, .default⟩]

theorem reported_cycle_is_real_sample :
    ∃ cycle, WorkflowGraph.new loopNodes loopEdges = .error (.cycleDetected cycle) ∧
      2 ≤ cycle.length ∧ cycle.head? = cycle.getLast? ∧ cycle.dropLast.Nodup := by
  have hdeclared : (nodeIds loopNodes).Nodup ∧ EndpointsDeclared loopNodes loopEdges :=
    ⟨by decide, by decide⟩
  obtain ⟨t, ht⟩ := fromGraph_ok.mpr hdeclared
  have hcycle : ∃ v, TransGen (Joins loopEdges) v v :=
    ⟨⟨"b", by decide⟩, .single (by unfold Joins; decide)⟩
  obtain ⟨cycle, hnew, hlength, hclosed, hdistinct, -⟩ :=
    reported_cycle_is_real loopNodes loopEdges t ht hcycle
  exact ⟨cycle, hnew, hlength, hclosed, hdistinct⟩

end Sample

end Pureflow.Workflow
