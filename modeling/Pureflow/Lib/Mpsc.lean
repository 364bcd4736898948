import Mathlib

/-!
Bounded channels with two-phase sends: a slot is reserved first, and the reservation is then
spent on a packet or given back.

The channel implementation is not modelled. It is a parameter: a state with the transitions its
operations can make and the part of it that can be observed. `Lawful` is its documented
contract, which leaves it free to refuse a reservation or to have nothing to receive.
-/

namespace Pureflow.Lib

inductive SendError
  | disconnected | cancelled | full
  deriving DecidableEq

inductive RecvError
  | disconnected | cancelled | empty
  deriving DecidableEq

inductive Poll (α : Type)
  | ready (a : α)
  | pending
  deriving DecidableEq

def Poll.map {α β : Type} (f : α → β) : Poll α → Poll β
  | .ready a => .ready (f a)
  | .pending => .pending

/-- What can be observed of a channel. -/
structure Channel (α : Type) where
  capacity : ℕ
  queue : List α
  reserved : ℕ
  receiverAlive : Bool
  deriving DecidableEq

namespace Channel

variable {α : Type}

def new (capacity : ℕ) : Channel α := ⟨capacity, [], 0, true⟩

/-- Slots in use: queued packets and outstanding reservations. -/
def used (c : Channel α) : ℕ := c.queue.length + c.reserved

def reserve (c : Channel α) : Channel α := { c with reserved := c.reserved + 1 }

def release (c : Channel α) : Channel α := { c with reserved := c.reserved - 1 }

/-- Spend a reservation on a packet; without a receiver the packet is discarded. -/
def commit (c : Channel α) (a : α) : Channel α :=
  { c with
    reserved := c.reserved - 1
    queue := if c.receiverAlive then c.queue ++ [a] else c.queue }

def pop (c : Channel α) : Channel α := { c with queue := c.queue.tail }

/-- What a receive is answered while the channel has this many senders. -/
def tryRecv (c : Channel α) (senders : ℕ) : Except RecvError α :=
  match c.queue with
  | a :: _ => .ok a
  | [] => .error (if senders = 0 then .disconnected else .empty)

def pollRecv (c : Channel α) (senders : ℕ) : Poll (Except RecvError α) :=
  match c.queue with
  | a :: _ => .ready (.ok a)
  | [] => if senders = 0 then .ready (.error .disconnected) else .pending

lemma pop_of_empty {c : Channel α} (h : c.queue = []) : c.pop = c := by
  obtain ⟨capacity, queue, reserved, receiverAlive⟩ := c
  obtain rfl : queue = [] := h
  rfl

/-- The receiver goes away, and what is queued is discarded. -/
def close (c : Channel α) : Channel α := { c with queue := [], receiverAlive := false }

/-- A channel in agreement with its history: `outstanding` reservations are held somewhere,
and `committed` and `received` list the packets sent into it and taken from it. -/
structure Sound (c : Channel α) (capacity outstanding : ℕ) (committed received : List α) :
    Prop where
  capacity : c.capacity = capacity
  used_le : c.used ≤ c.capacity
  reserved : c.reserved = outstanding
  received_isPrefix : received <+: committed
  alive : c.receiverAlive = true → committed = received ++ c.queue
  dead : c.receiverAlive = false → c.queue = []

namespace Sound

variable {c : Channel α} {cap n : ℕ} {committed received : List α}

lemma new (cap : ℕ) : (Channel.new cap : Channel α).Sound cap 0 [] [] := by
  refine ⟨rfl, ?_, rfl, List.nil_prefix, fun _ => rfl, fun h => ?_⟩
  · simp [Channel.new, used]
  · cases h

lemma mem_committed (h : c.Sound cap n committed received) {x : α}
    (hx : x ∈ c.queue ∨ x ∈ received) : x ∈ committed := by
  rcases hx with hx | hx
  · cases halive : c.receiverAlive with
    | true =>
      rw [h.alive halive]
      exact List.mem_append_right _ hx
    | false =>
      rw [h.dead halive] at hx
      cases hx
  · exact h.received_isPrefix.subset hx

lemma reserve (h : c.Sound cap n committed received) (hroom : c.used < c.capacity) :
    c.reserve.Sound cap (n + 1) committed received := by
  refine ⟨h.capacity, ?_, ?_, h.received_isPrefix, h.alive, h.dead⟩
  · simp only [Channel.reserve, used] at hroom ⊢
    omega
  · simp [Channel.reserve, h.reserved]

lemma release (h : c.Sound cap (n + 1) committed received) :
    c.release.Sound cap n committed received := by
  have hres := h.reserved
  have hused := h.used_le
  refine ⟨h.capacity, ?_, ?_, h.received_isPrefix, h.alive, h.dead⟩
  · simp only [Channel.release, used] at hused ⊢
    omega
  · simp [Channel.release, hres]

lemma commit (h : c.Sound cap (n + 1) committed received) (a : α) :
    (c.commit a).Sound cap n (committed ++ [a]) received := by
  have hres := h.reserved
  have hused := h.used_le
  refine ⟨h.capacity, ?_, ?_, h.received_isPrefix.trans (List.prefix_append _ _), ?_, ?_⟩
  · simp only [Channel.commit, used] at hused ⊢
    split
    · rw [List.length_append, List.length_singleton]
      omega
    · omega
  · simp [Channel.commit, hres]
  · intro halive
    simp only [Channel.commit] at halive ⊢
    rw [halive, if_pos rfl, h.alive halive, List.append_assoc]
  · intro hdead
    simp only [Channel.commit] at hdead ⊢
    rw [hdead, if_neg (by simp), h.dead hdead]

lemma pop (h : c.Sound cap n committed received) {a : α} (ha : c.queue.head? = some a) :
    c.pop.Sound cap n committed (received ++ [a]) := by
  obtain ⟨rest, hq⟩ := List.head?_eq_some_iff.mp ha
  -- a queue with a packet in it still has its receiver
  have halive : c.receiverAlive = true := by
    by_contra hdead
    have := h.dead (by simpa using hdead)
    simp [hq] at this
  have hcommitted : committed = received ++ [a] ++ rest := by
    rw [h.alive halive, hq, List.append_assoc, List.singleton_append]
  have hused := h.used_le
  refine ⟨h.capacity, ?_, h.reserved, ⟨rest, hcommitted.symm⟩, fun _ => ?_, fun hdead => ?_⟩
  · simp only [Channel.pop, used, hq, List.length_cons, List.tail_cons] at hused ⊢
    omega
  · simpa [Channel.pop, hq] using hcommitted
  · simp only [Channel.pop] at hdead
    rw [halive] at hdead
    cases hdead

lemma close (h : c.Sound cap n committed received) :
    c.close.Sound cap n committed received := by
  have hused := h.used_le
  refine ⟨h.capacity, ?_, h.reserved, h.received_isPrefix, fun halive => ?_, fun _ => rfl⟩
  · simp only [Channel.close, used, List.length_nil] at hused ⊢
    omega
  · cases halive

end Sound

end Channel

/-- A channel implementation: its states, the transitions of its operations and its view. -/
structure Mpsc (α : Type) where
  State : Type
  channel : ℕ → State
  view : State → Channel α
  tryReserve : State → Except SendError Unit → State → Prop
  send : State → α → State → Prop
  abort : State → State → Prop
  tryRecv : State → Except RecvError α → State → Prop
  pollRecv : State → Poll (Except RecvError α) → State → Prop
  dropSender : State → State → Prop
  dropReceiver : State → State → Prop

namespace Mpsc

variable {α : Type}

/-- The documented contract. Sending and aborting are only promised for a reservation that is
outstanding, which a permit stands for. -/
structure Lawful (m : Mpsc α) : Prop where
  view_channel (n : ℕ) : m.view (m.channel n) = .new n
  reserve_ok {s s' : m.State} : m.tryReserve s (.ok ()) s' →
    (m.view s).used < (m.view s).capacity ∧ m.view s' = (m.view s).reserve
  reserve_error {s s' : m.State} {e : SendError} : m.tryReserve s (.error e) s' →
    m.view s' = m.view s
  send {s s' : m.State} {a : α} : m.send s a s' → 0 < (m.view s).reserved →
    m.view s' = (m.view s).commit a
  abort {s s' : m.State} : m.abort s s' → 0 < (m.view s).reserved →
    m.view s' = (m.view s).release
  recv_ok {s s' : m.State} {a : α} : m.tryRecv s (.ok a) s' →
    (m.view s).queue.head? = some a ∧ m.view s' = (m.view s).pop
  recv_error {s s' : m.State} {e : RecvError} : m.tryRecv s (.error e) s' → m.view s' = m.view s
  poll_ok {s s' : m.State} {a : α} : m.pollRecv s (.ready (.ok a)) s' →
    (m.view s).queue.head? = some a ∧ m.view s' = (m.view s).pop
  poll_error {s s' : m.State} {e : RecvError} : m.pollRecv s (.ready (.error e)) s' →
    m.view s' = m.view s
  poll_pending {s s' : m.State} : m.pollRecv s .pending s' → m.view s' = m.view s
  dropSender {s s' : m.State} : m.dropSender s s' → m.view s' = m.view s
  dropReceiver {s s' : m.State} : m.dropReceiver s s' → m.view s' = (m.view s).close

/-- Channels whose answers are determined, as they are while no task is cancelled: there is a
reservation where there is a receiver and room, a queued packet is received, and an empty channel
is disconnected once all its senders are dropped and pending before. Every operation has an
answer. -/
structure Prompt (m : Mpsc α) (senders : m.State → ℕ) : Prop extends m.Lawful where
  senders_channel (n : ℕ) : senders (m.channel n) = 1
  senders_reserve {s s' : m.State} {answer : Except SendError Unit} : m.tryReserve s answer s' →
    senders s' = senders s
  senders_send {s s' : m.State} {a : α} : m.send s a s' → senders s' = senders s
  senders_abort {s s' : m.State} : m.abort s s' → senders s' = senders s
  senders_recv {s s' : m.State} {answer : Except RecvError α} : m.tryRecv s answer s' →
    senders s' = senders s
  senders_poll {s s' : m.State} {answer : Poll (Except RecvError α)} : m.pollRecv s answer s' →
    senders s' = senders s
  senders_dropSender {s s' : m.State} : m.dropSender s s' → senders s' = senders s - 1
  senders_dropReceiver {s s' : m.State} : m.dropReceiver s s' → senders s' = senders s
  reserve_room {s s' : m.State} {answer : Except SendError Unit} : m.tryReserve s answer s' →
    (m.view s).receiverAlive = true → (m.view s).used < (m.view s).capacity → answer = .ok ()
  poll_queued {s s' : m.State} {answer : Poll (Except RecvError α)} : m.pollRecv s answer s' →
    (m.view s).queue ≠ [] → ∃ a, answer = .ready (.ok a)
  poll_empty {s s' : m.State} {answer : Poll (Except RecvError α)} : m.pollRecv s answer s' →
    (m.view s).queue = [] →
    answer = if senders s = 0 then .ready (.error .disconnected) else .pending
  can_reserve (s : m.State) : ∃ answer s', m.tryReserve s answer s'
  can_send (s : m.State) (a : α) : ∃ s', m.send s a s'
  can_abort (s : m.State) : ∃ s', m.abort s s'
  can_recv (s : m.State) : ∃ answer s', m.tryRecv s answer s'
  can_poll (s : m.State) : ∃ answer s', m.pollRecv s answer s'
  can_dropSender (s : m.State) : ∃ s', m.dropSender s s'
  can_dropReceiver (s : m.State) : ∃ s', m.dropReceiver s s'

/-- Prompt channels that are said to be full only while they have a receiver. -/
structure Candid (m : Mpsc α) (senders : m.State → ℕ) : Prop extends m.Prompt senders where
  reserve_full {s s' : m.State} : m.tryReserve s (.error .full) s' →
    (m.view s).receiverAlive = true

section Polls

variable {m : Mpsc α} {senders : m.State → ℕ} {s s' : m.State}

/-- **A poll follows the queue.** -/
lemma Prompt.pollRecv_eq (hm : m.Prompt senders) {answer : Poll (Except RecvError α)}
    (h : m.pollRecv s answer s') :
    answer = (m.view s).pollRecv (senders s) ∧ m.view s' = (m.view s).pop := by
  unfold Channel.pollRecv
  cases hqueue : (m.view s).queue with
  | nil =>
    have hanswer := hm.poll_empty h hqueue
    refine ⟨hanswer, ?_⟩
    rw [Channel.pop_of_empty hqueue]
    split at hanswer
    · subst hanswer
      exact hm.poll_error h
    · subst hanswer
      exact hm.poll_pending h
  | cons a rest =>
    obtain ⟨b, rfl⟩ := hm.poll_queued h (by simp [hqueue])
    obtain ⟨hhead, hpop⟩ := hm.poll_ok h
    rw [hqueue] at hhead
    cases hhead
    exact ⟨rfl, hpop⟩

/-- Prompt channels whose other receive, the one that does not wait, is determined as well. -/
structure Definite (m : Mpsc α) (senders : m.State → ℕ) : Prop extends m.Prompt senders where
  recv_queued {s s' : m.State} {answer : Except RecvError α} : m.tryRecv s answer s' →
    (m.view s).queue ≠ [] → ∃ a, answer = .ok a
  recv_empty {s s' : m.State} {answer : Except RecvError α} : m.tryRecv s answer s' →
    (m.view s).queue = [] →
    answer = .error (if senders s = 0 then .disconnected else .empty)

lemma Definite.tryRecv_eq (hm : m.Definite senders) {answer : Except RecvError α}
    (h : m.tryRecv s answer s') :
    answer = (m.view s).tryRecv (senders s) ∧ m.view s' = (m.view s).pop := by
  unfold Channel.tryRecv
  cases hqueue : (m.view s).queue with
  | nil =>
    have hanswer := hm.recv_empty h hqueue
    refine ⟨hanswer, ?_⟩
    subst hanswer
    rw [Channel.pop_of_empty hqueue]
    exact hm.recv_error h
  | cons a rest =>
    obtain ⟨b, rfl⟩ := hm.recv_queued h (by simp [hqueue])
    obtain ⟨hhead, hpop⟩ := hm.recv_ok h
    rw [hqueue] at hhead
    cases hhead
    exact ⟨rfl, hpop⟩

end Polls

/-- The plainest channel that keeps the contract: a channel with its number of senders. -/
def plain (α : Type) : Mpsc α where
  State := Channel α × ℕ
  channel n := (.new n, 1)
  view := Prod.fst
  tryReserve s answer s' :=
    (answer, s') =
      if s.1.receiverAlive = false then (.error .disconnected, s)
      else if s.1.used < s.1.capacity then (.ok (), (s.1.reserve, s.2))
      else (.error .full, s)
  send s a s' := s' = (s.1.commit a, s.2)
  abort s s' := s' = (s.1.release, s.2)
  tryRecv s answer s' :=
    (answer, s') =
      match s.1.queue with
      | a :: _ => (.ok a, (s.1.pop, s.2))
      | [] => (.error (if s.2 = 0 then .disconnected else .empty), s)
  pollRecv s answer s' :=
    (answer, s') =
      match s.1.queue with
      | a :: _ => (.ready (.ok a), (s.1.pop, s.2))
      | [] => (if s.2 = 0 then .ready (.error .disconnected) else .pending, s)
  dropSender s s' := s' = (s.1, s.2 - 1)
  dropReceiver s s' := s' = (s.1.close, s.2)

theorem plain_lawful (α : Type) : (plain α).Lawful where
  view_channel _ := rfl
  reserve_ok h := by
    simp only [plain] at h
    split_ifs at h with hdead hroom
    all_goals cases h
    exact ⟨hroom, rfl⟩
  reserve_error h := by
    simp only [plain] at h
    split_ifs at h
    all_goals cases h
    all_goals rfl
  send h _ := by rw [h]; rfl
  abort h _ := by rw [h]; rfl
  recv_ok {s s' a} h := by
    simp only [plain] at h ⊢
    split at h <;> cases h
    rename_i hq
    simp [hq]
  recv_error {s s' e} h := by
    simp only [plain] at h ⊢
    split at h <;> cases h
    rfl
  poll_ok {s s' a} h := by
    simp only [plain] at h ⊢
    split at h
    · cases h
      rename_i hq
      simp [hq]
    · split at h <;> cases h
  poll_error {s s' e} h := by
    simp only [plain] at h ⊢
    split at h
    · cases h
    · split at h <;> cases h
      rfl
  poll_pending {s s'} h := by
    simp only [plain] at h ⊢
    split at h
    · cases h
    · split at h <;> cases h
      rfl
  dropSender h := by rw [h]; rfl
  dropReceiver h := by rw [h]; rfl

theorem plain_prompt (α : Type) : (plain α).Prompt Prod.snd where
  toLawful := plain_lawful α
  senders_channel _ := rfl
  senders_reserve h := by
    simp only [plain] at h
    split_ifs at h <;> cases h <;> rfl
  senders_send h := by rw [h]
  senders_abort h := by rw [h]
  senders_recv h := by
    simp only [plain] at h
    split at h <;> cases h <;> rfl
  senders_poll h := by
    simp only [plain] at h
    split at h
    · cases h
      rfl
    · split at h <;> cases h <;> rfl
  senders_dropSender h := by rw [h]
  senders_dropReceiver h := by rw [h]
  reserve_room h halive hroom := by
    simp only [plain] at h halive hroom
    rw [if_neg (by simp [halive]), if_pos hroom] at h
    exact (Prod.mk.inj h).1
  poll_queued h hqueue := by
    simp only [plain] at h hqueue
    split at h
    · next a rest hq => exact ⟨a, (Prod.mk.inj h).1⟩
    · next hq => exact absurd hq hqueue
  poll_empty h hqueue := by
    simp only [plain] at h hqueue
    split at h
    · next hq => cases hqueue.symm.trans hq
    · split at h
      · next hsenders => rw [(Prod.mk.inj h).1, if_pos hsenders]
      · next hsenders => rw [(Prod.mk.inj h).1, if_neg hsenders]
  can_reserve _ := ⟨_, _, rfl⟩
  can_send _ _ := ⟨_, rfl⟩
  can_abort _ := ⟨_, rfl⟩
  can_recv _ := ⟨_, _, rfl⟩
  can_poll _ := ⟨_, _, rfl⟩
  can_dropSender _ := ⟨_, rfl⟩
  can_dropReceiver _ := ⟨_, rfl⟩

theorem plain_candid (α : Type) : (plain α).Candid Prod.snd where
  toPrompt := plain_prompt α
  reserve_full h := by
    simp only [plain] at h
    split_ifs at h with hdead hroom
    · cases h
    · cases h
    · exact (Bool.not_eq_false _).mp hdead

theorem plain_definite (α : Type) : (plain α).Definite Prod.snd where
  toPrompt := plain_prompt α
  recv_queued h hqueue := by
    simp only [plain] at h hqueue
    split at h
    · next a rest hq => exact ⟨a, (Prod.mk.inj h).1⟩
    · next hq => exact absurd hq hqueue
  recv_empty h hqueue := by
    simp only [plain] at h hqueue
    split at h
    · next hq => cases hqueue.symm.trans hq
    · exact (Prod.mk.inj h).1

end Mpsc

end Pureflow.Lib
