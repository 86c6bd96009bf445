import Kboard.Concurrency.Termination
import Kboard.Syscall.Reinitialisation

/-!
# What re-initialisation cannot break

`spin_lock_init` makes the lock free whoever holds it, so two calls can be in
their critical sections at once. Even then no call hangs, and `CurrentIndex` and
whatever is derived from it alone stay within `Ring`. The slot of an enqueue
also depends on `Count`, and is only sure to be within `Ring` as long as the
lock does its work.
-/

set_option autoImplicit false

namespace Kboard.Syscall

open Concurrency Queue

/-! ## Indices -/

def InRing (index : Int) : Prop := 0 ≤ index ∧ index < maxClip

instance (index : Int) : Decidable (InRing index) :=
  inferInstanceAs (Decidable (0 ≤ index ∧ index < maxClip))

/-- The index at which the next step loads from `Ring` or stores to it. -/
def accesses : Phase → Option Int
  | .running (.enqueue _ (.storeItem slot)) => some slot
  | .running (.dequeue _ (.copyToUser index)) => some index
  | .running (.dequeue _ (.clearSlot _ index)) => some index
  | .running (.init (.clearSlot index)) => some index
  | _ => none

def inEnqueue : Phase → Bool
  | .running (.enqueue _ _) => true
  | _ => false

/-- What a thread has loaded of `CurrentIndex`, and where the loop of
`do_sys_kb_init` is. -/
def Placed : Phase → Prop
  | .running (.enqueue _ (.loadTailCount index)) => InRing index
  | .running (.enqueue _ (.storeItem slot)) => -maxClip < slot ∧ slot < maxClip
  | .running (.dequeue _ (.copyToUser index)) => InRing index
  | .running (.dequeue _ (.clearSlot _ index)) => InRing index
  | .running (.dequeue _ (.storeCurrentIndex _ loaded)) => InRing loaded
  | .running (.init (.clearSlot index)) => InRing index
  | _ => True

theorem inRing_next {index : Int} (inRing : InRing index) :
    InRing ((index + 1).tmod maxClip) := by
  obtain ⟨nonneg, below⟩ := inRing
  rw [Int.tmod_eq_emod_of_nonneg (by omega)]
  simp only [InRing, maxClip]
  omega

private theorem placed_initLoop {index : Int} (nonneg : 0 ≤ index) :
    Placed (.running (.init (initLoop index))) := by
  unfold initLoop
  split
  · next below => exact ⟨nonneg, below⟩
  · trivial

theorem placed_of_step {s s' : Variables} {source target : Phase} (inRing : InRing s.currentIndex)
    (placed : Placed source) (stepped : program s source s' target) :
    InRing s'.currentIndex ∧ Placed target := by
  cases transition_of_program stepped with
  | @call _ call =>
      cases call with
      | enqueue item =>
          simp only [start]
          split <;> exact ⟨inRing, trivial⟩
      | dequeue | init => exact ⟨inRing, trivial⟩
  | @enqueue _ _ item point control worked =>
      cases point with
      | spinLock =>
          obtain ⟨locked, acquired, same⟩ := Option.map_eq_some_iff.mp worked
          obtain ⟨_, rfl⟩ := spinLock_eq_some_iff.mp acquired
          cases same
          exact ⟨inRing, trivial⟩
      | testCount =>
          cases worked
          split <;> exact ⟨inRing, trivial⟩
      | loadCurrentIndex =>
          cases worked
          exact ⟨inRing, inRing⟩
      | loadTailCount index =>
          cases worked
          have positive : (0 : Int) < maxClip := by decide
          exact ⟨inRing, Int.lt_tmod_of_pos _ positive, Int.tmod_lt_of_pos _ positive⟩
      | storeItem | loadCount | storeCount | spinUnlock =>
          cases worked
          exact ⟨inRing, trivial⟩
  | @dequeue _ _ copies point control worked =>
      cases point with
      | spinLock =>
          obtain ⟨locked, acquired, same⟩ := Option.map_eq_some_iff.mp worked
          obtain ⟨_, rfl⟩ := spinLock_eq_some_iff.mp acquired
          cases same
          exact ⟨inRing, trivial⟩
      | testCount | copyToUser =>
          cases worked
          split <;> exact ⟨inRing, trivial⟩
      | loadCopyIndex | loadClearIndex | loadCurrentIndex =>
          cases worked
          exact ⟨inRing, inRing⟩
      | storeCurrentIndex item loaded =>
          cases worked
          exact ⟨inRing_next placed, trivial⟩
      | clearSlot | loadCount | storeCount | spinUnlock =>
          cases worked
          exact ⟨inRing, trivial⟩
  | @init _ _ point control worked =>
      cases point with
      | spinLock =>
          obtain ⟨locked, acquired, same⟩ := Option.map_eq_some_iff.mp worked
          obtain ⟨_, rfl⟩ := spinLock_eq_some_iff.mp acquired
          cases same
          exact ⟨inRing, placed_initLoop le_rfl⟩
      | clearSlot index =>
          cases worked
          exact ⟨inRing, placed_initLoop (placed.1.trans (Int.le_add_one le_rfl))⟩
      | storeCurrentIndex =>
          cases worked
          exact ⟨⟨le_rfl, show (0 : Int) < 5 by decide⟩, trivial⟩
      | spinLockInit | storeCount | spinUnlock =>
          cases worked
          exact ⟨inRing, trivial⟩
  | collect => exact ⟨inRing, trivial⟩

section

variable {ι : Type} [DecidableEq ι] {origin : Variables} {config : Config ι Variables Phase}
  {moves : List (Move ι Phase)}

private theorem accesses_cases {phase : Phase} {index : Int}
    (access : accesses phase = some index) :
    (∃ item, phase = .running (.enqueue item (.storeItem index))) ∨
      ¬ inEnqueue phase ∧ (Placed phase → InRing index) := by
  unfold accesses at access
  split at access
  · next item slot =>
      cases access
      exact .inl ⟨item, rfl⟩
  · cases access; exact .inr ⟨Bool.false_ne_true, id⟩
  · cases access; exact .inr ⟨Bool.false_ne_true, id⟩
  · cases access; exact .inr ⟨Bool.false_ne_true, id⟩
  · cases access

theorem Placed.inRing {phase : Phase} {index : Int} (placed : Placed phase)
    (access : accesses phase = some index) (other : ¬ inEnqueue phase) : InRing index := by
  rcases accesses_cases access with ⟨item, rfl⟩ | ⟨_, inRing⟩
  · exact absurd rfl other
  · exact inRing placed

theorem Placed.slot {phase : Phase} {index : Int} (placed : Placed phase)
    (access : accesses phase = some index) : -maxClip < index ∧ index < maxClip := by
  rcases accesses_cases access with ⟨item, rfl⟩ | ⟨_, inRing⟩
  · exact placed
  · obtain ⟨nonneg, below⟩ := inRing placed
    simp only [maxClip] at below ⊢
    omega

/-- Thread 1 has found an item to dequeue and cleared its slot when thread 0
breaks in and sets `Count` to 0. Thread 1 makes it -1, and thread 2, with the
lock that thread 0 has given back, is about to store in front of `Ring`. -/
def underflowSchedule : List (Thread × Action) :=
  (.t1, .call (.enqueue 7)) :: steps .t1 9 ++ (.t1, .call (.dequeue true)) :: steps .t1 6 ++
    (.t0, .call .init) :: steps .t0 10 ++ steps .t1 2 ++ (.t2, .call (.enqueue 8)) :: steps .t2 4

theorem enqueue_underflows :
    ∃ config : Config Thread _ _, Reachable program (initial boot) config ∧
      accesses (config.thread .t2) = some (-1) := by
  obtain ⟨moves, config, run, checked⟩ := run_of_execute boot (fun _ _ => True) underflowSchedule
    (fun config => accesses (config.thread .t2) == some (-1)) rfl
  exact ⟨config, run.reachable, beq_iff_eq.mp checked⟩

end

/-! ## Calls beside re-initialisation -/

/-- An enqueue, a dequeue and a re-initialisation that always finds the lock free
are the operations of one queue, which re-initialisation empties: one call at a
time is in its critical section, and the items accepted since the last
re-initialisation have been delivered in their order or are still queued. -/
theorem init_linearizable {ι : Type} [DecidableEq ι] {origin : Variables}
    {moves : List (Move ι Phase)} {config : Config ι Variables Phase}
    (fresh : origin = boot ∨ ∃ s, origin = completedInit s)
    (run : Run program LockFree (initial origin) moves config) :
    ∃ queue, Legal serve [] (history moves) queue ∧
      (∀ i j, Owns (config.thread i) → Owns (config.thread j) → i = j) ∧
      (∀ before result since, history moves = before ++ (.init, result) :: since →
        (∀ entry ∈ since, entry.1 ≠ .init) →
        since.filterMap accepts = since.filterMap delivers ++ queue) ∧
      (config.shared.locked = false → Represents config.shared queue) := by
  have linearized : Linearized moves config := by
    rcases fresh with rfl | ⟨s, rfl⟩
    · exact linearized_of_run rfl rfl rfl run
    · exact linearized_of_run rfl rfl rfl run
  have unique := linearized.owner_unique
  obtain ⟨queue, legal, valid⟩ := linearized
  refine ⟨queue, legal, unique, ?_, ?_⟩
  · intro before result since split others
    rw [split, List.append_cons] at legal
    obtain ⟨between, upToInit, afterInit⟩ := legal.split
    obtain ⟨_, _, served⟩ := upToInit.last
    cases served
    exact afterInit.conserves accepts delivers fun member => serve_accounts (others _ member)
  · intro free
    rcases valid with ⟨_, _, represents⟩ | ⟨taken, _⟩
    · exact represents
    · simp [units, free] at taken

/-- Thread 1 enqueues 7, thread 0 empties the ring, and thread 1 enqueues 8. -/
theorem init_linearizable_emptied :
    ∃ (moves : _) (config : Config Thread _ _), Run program LockFree (initial boot) moves config ∧
      config.shared.count = 1 ∧ ∃ queue, Legal serve [] (history moves) queue ∧
        (config.shared.locked = false → Represents config.shared queue) := by
  obtain ⟨moves, config, run, checked⟩ := run_of_execute boot LockFree
    ((.t1, .call (.enqueue 7)) :: steps .t1 9 ++ (.t0, .call .init) :: steps .t0 11 ++
      (.t1, .call (.enqueue 8)) :: steps .t1 9) (fun config => config.shared.count == 1) rfl
  obtain ⟨queue, legal, _, _, represents⟩ := init_linearizable (.inl rfl) run
  exact ⟨moves, config, run, beq_iff_eq.mp checked, queue, legal, represents⟩

/-! ## Calls come to an end -/

def Idle (phase : Phase) : Prop := phase = .idle

instance (phase : Phase) : Decidable (Idle phase) :=
  match phase with
  | .idle => .isTrue rfl
  | .running _ | .returned _ _ => .isFalse nofun

def rank : Phase → ℕ
  | .idle => 0
  | .returned _ _ => 1
  | .running (.enqueue _ point) =>
      match point with
      | .spinLock => 9
      | .testCount => 8
      | .loadCurrentIndex => 7
      | .loadTailCount _ => 6
      | .storeItem _ => 5
      | .loadCount => 4
      | .storeCount _ => 3
      | .spinUnlock _ => 2
  | .running (.dequeue _ point) =>
      match point with
      | .spinLock => 12
      | .testCount => 11
      | .loadCopyIndex => 10
      | .copyToUser _ => 9
      | .loadClearIndex _ => 8
      | .clearSlot _ _ => 7
      | .loadCount _ => 6
      | .storeCount _ _ => 5
      | .loadCurrentIndex _ => 4
      | .storeCurrentIndex _ _ => 3
      | .spinUnlock _ => 2
  | .running (.init point) =>
      match point with
      | .spinLockInit => 11
      | .spinLock => 10
      | .clearSlot index => (5 - index).toNat + 4
      | .storeCount => 4
      | .storeCurrentIndex => 3
      | .spinUnlock => 2

theorem rank_le {phase : Phase} (placed : Placed phase) : rank phase ≤ 12 := by
  cases phase with
  | idle => exact Nat.zero_le 12
  | returned => exact Nat.le_of_ble_eq_true rfl
  | running point =>
      cases point with
      | enqueue item point => cases point <;> simp [rank]
      | dequeue copies point => cases point <;> simp [rank]
      | init point =>
          cases point with
          | clearSlot index =>
              obtain ⟨nonneg, below⟩ := placed
              simp only [rank]
              omega
          | spinLockInit | spinLock | storeCount | storeCurrentIndex | spinUnlock => simp [rank]

private theorem rank_initLoop (index : Int) :
    rank (.running (.init (initLoop index))) ≤ (5 - index).toNat + 4 := by
  unfold initLoop
  split <;> simp [rank]

theorem rank_lt_of_step {s s' : Variables} {source target : Phase}
    (stepped : program s source s' target) (placed : Placed source) (busy : ¬ Idle source) :
    rank target < rank source := by
  cases transition_of_program stepped with
  | call => exact absurd rfl busy
  | collect => exact Nat.one_pos
  | @enqueue _ _ item point control worked =>
      cases point with
      | spinLock =>
          obtain ⟨locked, _, same⟩ := Option.map_eq_some_iff.mp worked
          cases same
          exact Nat.lt_succ_self _
      | testCount =>
          cases worked
          split <;> simp [rank, Phase.after]
      | loadCurrentIndex | loadTailCount | storeItem | loadCount | storeCount | spinUnlock =>
          cases worked
          exact Nat.lt_succ_self _
  | @dequeue _ _ copies point control worked =>
      cases point with
      | spinLock =>
          obtain ⟨locked, _, same⟩ := Option.map_eq_some_iff.mp worked
          cases same
          exact Nat.lt_succ_self _
      | testCount | copyToUser =>
          cases worked
          split <;> simp [rank, Phase.after]
      | loadCopyIndex | loadClearIndex | clearSlot | loadCount | storeCount | loadCurrentIndex
      | storeCurrentIndex | spinUnlock =>
          cases worked
          exact Nat.lt_succ_self _
  | @init _ _ point control worked =>
      cases point with
      | spinLock =>
          obtain ⟨locked, _, same⟩ := Option.map_eq_some_iff.mp worked
          cases same
          exact Nat.lt_succ_of_le (rank_initLoop 0)
      | clearSlot index =>
          cases worked
          obtain ⟨nonneg, below⟩ := placed
          have next := rank_initLoop (index + 1)
          simp only [maxClip] at below
          simp only [Phase.after]
          rw [show rank (.running (.init (.clearSlot index))) = (5 - index).toNat + 4 from rfl]
          omega
      | spinLockInit | storeCount | storeCurrentIndex | spinUnlock =>
          cases worked
          exact Nat.lt_succ_self _

/-- A lock that is held after a step was held before it by somebody else, or the
thread is now in its critical section. -/
theorem locked_of_step {s s' : Variables} {source target : Phase}
    (stepped : program s source s' target) (held : s'.locked) :
    Owns target ∨ s.locked ∧ ¬ Owns source := by
  cases transition_of_program stepped with
  | call => exact .inr ⟨held, id⟩
  | collect => exact .inr ⟨held, id⟩
  | @enqueue _ _ item point control worked =>
      cases point with
      | spinLock =>
          obtain ⟨locked, _, same⟩ := Option.map_eq_some_iff.mp worked
          cases same
          exact .inl trivial
      | testCount =>
          cases worked
          split <;> exact .inl trivial
      | loadCurrentIndex | loadTailCount | storeItem | loadCount | storeCount =>
          cases worked
          exact .inl trivial
      | spinUnlock =>
          cases worked
          cases held
  | @dequeue _ _ copies point control worked =>
      cases point with
      | spinLock =>
          obtain ⟨locked, _, same⟩ := Option.map_eq_some_iff.mp worked
          cases same
          exact .inl trivial
      | testCount | copyToUser =>
          cases worked
          split <;> exact .inl trivial
      | loadCopyIndex | loadClearIndex | clearSlot | loadCount | storeCount | loadCurrentIndex
      | storeCurrentIndex =>
          cases worked
          exact .inl trivial
      | spinUnlock =>
          cases worked
          cases held
  | @init _ _ point control worked =>
      cases point with
      | spinLock =>
          obtain ⟨locked, _, same⟩ := Option.map_eq_some_iff.mp worked
          cases same
          exact .inl (owns_initLoop 0)
      | clearSlot index =>
          cases worked
          exact .inl (owns_initLoop (index + 1))
      | storeCount | storeCurrentIndex =>
          cases worked
          exact .inl trivial
      | spinLockInit | spinUnlock =>
          cases worked
          cases held

private theorem enabled_of_owns {s : Variables} {phase : Phase} (owner : Owns phase) :
    (step s phase .advance).isSome := by
  cases phase with
  | idle | returned => exact owner.elim
  | running point =>
      cases point with
      | enqueue item point => cases point <;> first | rfl | exact owner.elim
      | dequeue copies point => cases point <;> first | rfl | exact owner.elim
      | init point => cases point <;> first | rfl | exact owner.elim

private theorem enabled_of_free {s : Variables} {phase : Phase} (busy : ¬ Idle phase)
    (free : s.locked = false) : (step s phase .advance).isSome := by
  cases phase with
  | idle => exact absurd rfl busy
  | returned => rfl
  | running point =>
      cases point with
      | enqueue item point =>
          cases point <;> simp [step, doSysKbEnqueue, spinLock, free]
      | dequeue copies point =>
          cases point <;> simp [step, doSysKbDequeue, spinLock, free]
      | init point => cases point <;> simp [step, doSysKbInit, spinLock, free]

section

variable {ι : Type} [DecidableEq ι]

/-- Nothing is out of place, and a lock that is held is held by somebody. -/
structure Sound (config : Config ι Variables Phase) : Prop where
  inRing : InRing config.shared.currentIndex
  placed : ∀ i, Placed (config.thread i)
  held : config.shared.locked → ∃ i, Owns (config.thread i)

theorem Sound.step {config : Config ι Variables Phase} {thread : ι} {shared : Variables}
    {target : Phase} (sound : Sound config)
    (stepped : program config.shared (config.thread thread) shared target) :
    Sound (config.advance thread shared target) := by
  obtain ⟨inRing, placed, held⟩ := sound
  obtain ⟨inRingAfter, placedAfter⟩ := placed_of_step inRing (placed thread) stepped
  refine ⟨inRingAfter, ?_, ?_⟩
  · intro i
    by_cases moved : i = thread
    · rw [moved, Config.advance_thread, Function.update_self]
      exact placedAfter
    · rw [Config.advance_thread, Function.update_of_ne moved]
      exact placed i
  · intro heldAfter
    rcases locked_of_step stepped heldAfter with owner | ⟨before, outside⟩
    · refine ⟨thread, ?_⟩
      rw [Config.advance_thread, Function.update_self]
      exact owner
    · obtain ⟨i, owner⟩ := held before
      have other : i ≠ thread := fun same => outside (same ▸ owner)
      refine ⟨i, ?_⟩
      rw [Config.advance_thread, Function.update_of_ne other]
      exact owner

theorem settles : Settles program Idle rank (Sound (ι := ι)) where
  keeps := Sound.step
  lowers sound stepped busy := rank_lt_of_step stepped (sound.placed _) busy
  progress := by
    intro config thread sound busy
    by_cases held : config.shared.locked
    · obtain ⟨i, owner⟩ := sound.held held
      obtain ⟨⟨shared, target⟩, taken⟩ := Option.isSome_iff_exists.mp
        (enabled_of_owns (s := config.shared) owner)
      refine ⟨i, ?_, shared, target, .advance, taken⟩
      intro idle
      rw [idle] at owner
      exact owner
    · obtain ⟨⟨shared, target⟩, taken⟩ := Option.isSome_iff_exists.mp
        (enabled_of_free busy (Bool.eq_false_iff.mpr held))
      exact ⟨thread, busy, shared, target, .advance, taken⟩

end

end Kboard.Syscall
