import Mathlib.Algebra.Order.Group.Int
import Mathlib.Data.List.Basic
import Mathlib.Data.List.Induction
import Mathlib.Logic.Function.Basic

/-!
# Bounded queues in a ring

A queue of bounded length kept in consecutive slots of a ring. Slots are
addressed by integers, as an array is in C, and only the slots from `0` up to
the capacity belong to the ring. Slots outside the window of the queue may
hold anything; `Cleared` is the stronger representation in which they hold a
fixed blank value.
-/

set_option autoImplicit false

namespace Kboard.Queue

universe u

variable {α : Type u} {capacity current : ℤ}

/-- How many places behind the oldest item a slot is. -/
def age (capacity current slot : ℤ) : ℕ := ((slot - current) % capacity).toNat

theorem wrap_eq {position : ℤ} (nonneg : 0 ≤ position) (small : position < capacity + capacity) :
    position % capacity = if position < capacity then position else position - capacity := by
  split
  · next below => exact Int.emod_eq_of_lt nonneg below
  · next above =>
      rw [← Int.sub_emod_right, Int.emod_eq_of_lt (by omega) (by omega)]

theorem age_eq {slot : ℤ} (currentNonneg : 0 ≤ current) (currentLt : current < capacity)
    (slotNonneg : 0 ≤ slot) (slotLt : slot < capacity) :
    (age capacity current slot : ℤ) =
      if current ≤ slot then slot - current else slot - current + capacity := by
  have turned : (slot - current) % capacity = (slot - current + capacity) % capacity := by simp
  have wrapped : (slot - current + capacity) % capacity = _ := wrap_eq (by omega) (by omega)
  unfold age
  rw [turned, wrapped]
  split <;> split <;> omega

/-- The ring holds `queue`, oldest item at `current`. -/
structure Holds (capacity : ℤ) (slots : ℤ → α) (current : ℤ) (queue : List α) : Prop where
  currentNonneg : 0 ≤ current
  currentLt : current < capacity
  lengthLe : (queue.length : ℤ) ≤ capacity
  filled : ∀ slot, 0 ≤ slot → slot < capacity → ∀ item,
    queue[age capacity current slot]? = some item → slots slot = item

/-- Every slot outside the window of the queue is blank. -/
def Cleared (capacity : ℤ) (blank : α) (slots : ℤ → α) (current : ℤ) (queue : List α) : Prop :=
  ∀ slot, 0 ≤ slot → slot < capacity → queue.length ≤ age capacity current slot →
    slots slot = blank

def tail (capacity current : ℤ) (queue : List α) : ℤ := (current + queue.length) % capacity

section

variable {slots : ℤ → α} {queue : List α} {item blank : α}

theorem Holds.age_tail_iff (held : Holds capacity slots current queue)
    (room : (queue.length : ℤ) < capacity) {slot : ℤ} (nonneg : 0 ≤ slot)
    (below : slot < capacity) :
    age capacity current slot = queue.length ↔ slot = tail capacity current queue := by
  have currentNonneg := held.currentNonneg
  have currentLt := held.currentLt
  have distance := age_eq currentNonneg currentLt nonneg below
  have wrapped : (current + queue.length) % capacity = _ := wrap_eq (by omega) (by omega)
  unfold tail
  rw [wrapped]
  split at distance <;> split <;> omega

theorem Holds.head {rest : List α} (held : Holds capacity slots current (item :: rest)) :
    slots current = item := by
  apply held.filled current held.currentNonneg held.currentLt
  simp [age]

theorem Holds.push (held : Holds capacity slots current queue)
    (room : (queue.length : ℤ) < capacity) :
    Holds capacity (Function.update slots (tail capacity current queue) item) current
      (queue ++ [item]) := by
  refine ⟨held.currentNonneg, held.currentLt, by simp; omega, ?_⟩
  intro slot nonneg below value stored
  have position := held.age_tail_iff room nonneg below
  by_cases last : slot = tail capacity current queue
  · rw [position.mpr last] at stored
    rw [last, Function.update_self]
    simpa using stored
  · have older : age capacity current slot ≠ queue.length := fun same => last (position.mp same)
    rw [Function.update_of_ne last]
    apply held.filled slot nonneg below
    rw [List.getElem?_append] at stored
    split at stored
    · exact stored
    · rw [List.getElem?_eq_none (by simp; omega)] at stored
      cases stored

theorem Cleared.push (held : Holds capacity slots current queue)
    (cleared : Cleared capacity blank slots current queue) (room : (queue.length : ℤ) < capacity) :
    Cleared capacity blank (Function.update slots (tail capacity current queue) item) current
      (queue ++ [item]) := by
  intro slot nonneg below free
  have position := held.age_tail_iff room nonneg below
  simp only [List.length_append, List.length_singleton] at free
  have notLast : slot ≠ tail capacity current queue := fun same => by
    have := position.mpr same
    omega
  rw [Function.update_of_ne notLast]
  exact cleared slot nonneg below (by omega)

theorem age_next {slot : ℤ} (currentNonneg : 0 ≤ current) (currentLt : current < capacity)
    (nonneg : 0 ≤ slot) (below : slot < capacity) :
    age capacity ((current + 1) % capacity) slot + 1 =
      if slot = current then capacity.toNat else age capacity current slot := by
  have next : (current + 1) % capacity = _ := wrap_eq (by omega) (by omega)
  have nextNonneg : 0 ≤ (current + 1) % capacity := Int.emod_nonneg _ (by omega)
  have nextLt : (current + 1) % capacity < capacity := Int.emod_lt_of_pos _ (by omega)
  have before := age_eq currentNonneg currentLt nonneg below
  have after := age_eq nextNonneg nextLt nonneg below
  split at next <;> split at before <;> split at after <;> split <;> omega

/-- Whatever is left in its slot, the oldest item is gone once `current` has
moved on. -/
theorem Holds.pop {rest : List α} (held : Holds capacity slots current (item :: rest)) :
    Holds capacity (Function.update slots current blank) ((current + 1) % capacity) rest := by
  have currentNonneg := held.currentNonneg
  have currentLt := held.currentLt
  have lengthLe := held.lengthLe
  simp only [List.length_cons] at lengthLe
  refine ⟨Int.emod_nonneg _ (by omega), Int.emod_lt_of_pos _ (by omega), by omega, ?_⟩
  intro slot nonneg below value stored
  have shift := age_next currentNonneg currentLt nonneg below
  obtain ⟨inRange, _⟩ := List.getElem?_eq_some_iff.mp stored
  have notOldest : slot ≠ current := fun same => by
    rw [if_pos same] at shift
    omega
  rw [if_neg notOldest] at shift
  rw [Function.update_of_ne notOldest]
  apply held.filled slot nonneg below
  rw [← shift, List.getElem?_cons_succ]
  exact stored

theorem Cleared.pop {rest : List α} (held : Holds capacity slots current (item :: rest))
    (cleared : Cleared capacity blank slots current (item :: rest)) :
    Cleared capacity blank (Function.update slots current blank) ((current + 1) % capacity)
      rest := by
  intro slot nonneg below free
  have shift := age_next held.currentNonneg held.currentLt nonneg below
  by_cases oldest : slot = current
  · rw [oldest, Function.update_self]
  · rw [if_neg oldest] at shift
    rw [Function.update_of_ne oldest]
    exact cleared slot nonneg below (by simp only [List.length_cons]; omega)

theorem Holds.empty (currentNonneg : 0 ≤ current) (currentLt : current < capacity) :
    Holds capacity slots current [] :=
  ⟨currentNonneg, currentLt, by simp; omega, by simp⟩

end

/-! ## Sequential histories -/

section

variable {State Call Response : Type}

/-- A history of calls and responses is the one a sequential object gives when
it serves the calls one after the other. -/
inductive Legal (serve : State → Call → Response × State) (start : State) :
    List (Call × Response) → State → Prop where
  | nil : Legal serve start [] start
  | snoc {history : List (Call × Response)} {state next : State} {call : Call}
      {response : Response} :
      Legal serve start history state → serve state call = (response, next) →
      Legal serve start (history ++ [(call, response)]) next

theorem Legal.single {serve : State → Call → Response × State} {start next : State} {call : Call}
    {response : Response} (served : serve start call = (response, next)) :
    Legal serve start [(call, response)] next := by
  have appended := Legal.nil.snoc served
  exact appended

theorem Legal.eq_start {serve : State → Call → Response × State} {start state : State}
    (legal : Legal serve start [] state) : state = start := by
  generalize whole : ([] : List (Call × Response)) = entries at legal
  cases legal with
  | nil => rfl
  | snoc => exact absurd whole.symm (List.append_ne_nil_of_right_ne_nil _ (List.cons_ne_nil _ _))

/-- What holds of every single answer holds of every entry of the history. -/
theorem Legal.forall_mem {serve : State → Call → Response × State} {start state : State}
    {history : List (Call × Response)} (legal : Legal serve start history state)
    {property : Call × Response → Prop}
    (answer : ∀ {state call response next}, serve state call = (response, next) →
      property (call, response)) : ∀ entry ∈ history, property entry := by
  induction legal with
  | nil => simp
  | snoc _ served ih =>
      intro entry member
      rcases List.mem_append.mp member with earlier | last
      · exact ih entry earlier
      · obtain rfl := List.mem_singleton.mp last
        exact answer served

theorem Legal.preserves {serve : State → Call → Response × State} {start state : State}
    {history : List (Call × Response)} (legal : Legal serve start history state)
    {invariant : State → Prop} (initial : invariant start)
    (step : ∀ {state call response next}, invariant state →
      serve state call = (response, next) → invariant next) : invariant state := by
  induction legal with
  | nil => exact initial
  | snoc _ served ih => exact step ih served

/-- What holds of an answer given in a state with the invariant holds of every
entry, if the calls of the history keep the invariant. -/
theorem Legal.forall_mem_of_invariant {serve : State → Call → Response × State}
    {start state : State} {history : List (Call × Response)}
    (legal : Legal serve start history state) {invariant : State → Prop}
    {property : Call × Response → Prop} (initial : invariant start)
    (step : ∀ {state call response next}, (call, response) ∈ history → invariant state →
      serve state call = (response, next) → invariant next ∧ property (call, response)) :
    invariant state ∧ ∀ entry ∈ history, property entry := by
  induction legal with
  | nil => exact ⟨initial, fun _ member => absurd member List.not_mem_nil⟩
  | snoc _ served ih =>
      obtain ⟨valid, earlier⟩ := ih fun member => step (List.mem_append_left _ member)
      obtain ⟨validNext, last⟩ := step (List.mem_append_right _ List.mem_cons_self) valid served
      refine ⟨validNext, ?_⟩
      intro entry member
      rcases List.mem_append.mp member with before | here
      · exact earlier entry before
      · rw [List.mem_singleton.mp here]
        exact last

theorem Legal.last {serve : State → Call → Response × State} {start state : State}
    {history : List (Call × Response)} {call : Call} {response : Response}
    (legal : Legal serve start (history ++ [(call, response)]) state) :
    ∃ previous, Legal serve start history previous ∧ serve previous call = (response, state) := by
  generalize whole : history ++ [(call, response)] = entries at legal
  cases legal with
  | nil => exact absurd whole (List.append_ne_nil_of_right_ne_nil _ (List.cons_ne_nil _ _))
  | @snoc earlier previous _ _ _ before served =>
      obtain ⟨rfl, same⟩ := List.append_inj' whole rfl
      cases List.singleton_inj.mp same
      exact ⟨previous, before, served⟩

/-- A history can be cut in two anywhere. -/
theorem Legal.split {serve : State → Call → Response × State} {start state : State}
    {earlier later : List (Call × Response)} (legal : Legal serve start (earlier ++ later) state) :
    ∃ between, Legal serve start earlier between ∧ Legal serve between later state := by
  induction later using List.reverseRecOn generalizing state with
  | nil => exact ⟨state, by simpa using legal, .nil⟩
  | append_singleton later entry ih =>
      rw [← List.append_assoc] at legal
      obtain ⟨previous, before, served⟩ := legal.last
      obtain ⟨between, first, second⟩ := ih before
      exact ⟨between, first, second.snoc served⟩

/-- The calls of a history lead to one state only. -/
theorem Legal.unique {serve : State → Call → Response × State} {start state other : State}
    {history : List (Call × Response)} (legal : Legal serve start history state)
    (legal' : Legal serve start history other) : other = state := by
  induction legal generalizing other with
  | nil => exact legal'.eq_start
  | snoc _ served ih =>
      obtain ⟨previous, before, served'⟩ := legal'.last
      obtain rfl := ih before
      rw [served] at served'
      exact (Prod.mk.inj served').2.symm

theorem Legal.append {serve : State → Call → Response × State} {start between state : State}
    {earlier later : List (Call × Response)} (first : Legal serve start earlier between)
    (second : Legal serve between later state) : Legal serve start (earlier ++ later) state := by
  induction second with
  | nil =>
      rw [List.append_nil]
      exact first
  | snoc _ served ih =>
      rw [← List.append_assoc]
      exact ih.snoc served

private theorem filterMap_snoc {β γ : Type} (select : β → Option γ) (history : List β) (entry : β) :
    (history ++ [entry]).filterMap select = history.filterMap select ++ (select entry).toList := by
  cases taken : select entry <;> simp [taken]

/-- If every single response accounts for the content it takes in and gives
out, so does the whole history. -/
theorem Legal.conserves_content {α : Type} {serve : State → Call → Response × State}
    {start state : State} {history : List (Call × Response)}
    (legal : Legal serve start history state) (content : State → List α)
    (accepts delivers : Call × Response → Option α)
    (accounts : ∀ {state call response next}, (call, response) ∈ history →
      serve state call = (response, next) →
      content state ++ (accepts (call, response)).toList =
        (delivers (call, response)).toList ++ content next) :
    content start ++ history.filterMap accepts = history.filterMap delivers ++ content state := by
  induction legal with
  | nil => simp
  | @snoc history state next call response _ served ih =>
      have before := ih fun member => accounts (List.mem_append_left _ member)
      have last := accounts (List.mem_append_right _ List.mem_cons_self) served
      calc content start ++ (history ++ [(call, response)]).filterMap accepts
          _ = history.filterMap delivers ++
              (content state ++ (accepts (call, response)).toList) := by
            rw [filterMap_snoc, ← List.append_assoc, before, List.append_assoc]
          _ = (history ++ [(call, response)]).filterMap delivers ++ content next := by
            rw [last, filterMap_snoc, List.append_assoc]

variable {α : Type} {serve : List α → Call → Response × List α}
  (accepts delivers : Call × Response → Option α) {history : List (Call × Response)}
  {queue : List α}

theorem Legal.conserves (legal : Legal serve [] history queue)
    (accounts : ∀ {queue call response next}, (call, response) ∈ history →
      serve queue call = (response, next) →
      queue ++ (accepts (call, response)).toList =
        (delivers (call, response)).toList ++ next) :
    history.filterMap accepts = history.filterMap delivers ++ queue :=
  legal.conserves_content (fun queue => queue) accepts delivers accounts

/-- If responses may also drop items, what is given out still comes from what
was taken in, in the same order and each item at most once. -/
theorem Legal.sublist (legal : Legal serve [] history queue)
    (accounts : ∀ {queue call response next}, serve queue call = (response, next) →
      ((delivers (call, response)).toList ++ next).Sublist
        (queue ++ (accepts (call, response)).toList)) :
    (history.filterMap delivers ++ queue).Sublist (history.filterMap accepts) := by
  induction legal with
  | nil => exact .slnil
  | @snoc history queue next call response _ served ih =>
      rw [filterMap_snoc, filterMap_snoc, List.append_assoc]
      refine ((accounts served).append_left _).trans ?_
      rw [← List.append_assoc]
      exact ih.append_right _

end

end Kboard.Queue
