import Kboard.Syscall.Linearization

/-! `do_sys_kb_init` at any time. It makes the lock free before it takes it,
whoever holds it, so it can break into the critical section of another call. A
dequeue that has found an item may then copy out a slot that has been cleared.
As long as every `spin_lock_init` finds the lock free, items may be dropped but
each one delivered is an item that was stored, and none is delivered twice. -/

set_option autoImplicit false

namespace Kboard.Syscall

open Concurrency Queue

theorem serve_sublist {queue next : List Int} {call : Call} {result : Result}
    (served : serve queue call = (result, next)) :
    ((delivers (call, result)).toList ++ next).Sublist
      (queue ++ (accepts (call, result)).toList) := by
  by_cases init : call = .init
  · subst init
    cases served
    exact List.nil_sublist _
  · rw [serve_accounts init served]

/-! ## Stored items -/

/-- The item that the thread is about to store in `Ring`. -/
def storing : Phase → Option Int
  | .running (.enqueue item (.storeItem _)) => some item
  | _ => none

/-- The item that the thread has stored and not yet returned from. -/
def pending : Phase → Option Int
  | .running (.enqueue item .loadCount) | .running (.enqueue item (.storeCount _)) => some item
  | .running (.enqueue item (.spinUnlock status)) => accepts (.enqueue item, { status })
  | _ => none

def accepted (phase : Phase) : Option Int := (outcome phase).bind accepts

/-- A call returns 0 for exactly the item it has stored. -/
private theorem transition_pending {s s' : Variables} {source target : Phase}
    (taken : Transition s source s' target) :
    (pending source).toList ++ (storing source).toList =
      (accepted target).toList ++ (pending target).toList := by
  cases taken with
  | @call _ call =>
      cases call with
      | enqueue item =>
          simp only [start]
          split <;> rfl
      | dequeue | init => rfl
  | @enqueue _ _ item point control worked =>
      cases point with
      | spinLock =>
          obtain ⟨_, _, same⟩ := Option.map_eq_some_iff.mp worked
          cases same
          rfl
      | testCount =>
          cases worked
          split <;> rfl
      | loadCurrentIndex | loadTailCount | storeItem | loadCount | storeCount => cases worked; rfl
      | spinUnlock status =>
          cases worked
          simp [pending, storing, accepted, outcome, Phase.after]
  | @dequeue _ _ copies point control worked =>
      cases control <;> rfl
  | @init _ _ point control worked =>
      cases control <;> rfl
  | collect => rfl

private theorem pending_of_not_owns {phase : Phase} (outside : ¬ Owns phase) :
    pending phase = none ∧ storing phase = none := by
  cases phase with
  | running point =>
      cases point with
      | enqueue item point =>
          cases point with
          | spinLock => exact ⟨rfl, rfl⟩
          | testCount | loadCurrentIndex | loadTailCount | storeItem | loadCount | storeCount
          | spinUnlock => exact absurd trivial outside
      | dequeue | init => exact ⟨rfl, rfl⟩
  | idle | returned => exact ⟨rfl, rfl⟩

section

variable {ι : Type} {moves : List (Move ι Phase)} {config : Config ι Variables Phase}

/-- The items that enqueues have stored in `Ring`, in that order. -/
def stored (moves : List (Move ι Phase)) : List Int :=
  moves.filterMap fun move => storing move.source

def returned (moves : List (Move ι Phase)) : List Int := (history moves).filterMap accepts

private theorem stored_append (move : Move ι Phase) :
    stored (moves ++ [move]) = stored moves ++ (storing move.source).toList := by
  cases item : storing move.source <;> simp [stored, item]

private theorem returned_append (move : Move ι Phase) :
    returned (moves ++ [move]) = returned moves ++ (accepted move.target).toList := by
  cases ended : outcome move.target with
  | none => simp [returned, history, accepted, ended]
  | some entry => cases item : accepts entry <;> simp [returned, history, accepted, ended, item]

/-- At most the holder of the lock has stored an item and not returned. -/
def Booked (moves : List (Move ι Phase)) (config : Config ι Variables Phase) : Prop :=
  ((∀ i, ¬ Owns (config.thread i)) → stored moves = returned moves) ∧
    ∀ i, Owns (config.thread i) →
      stored moves = returned moves ++ (pending (config.thread i)).toList

theorem Booked.sublist (booked : Booked moves config) :
    (returned moves).Sublist (stored moves) := by
  obtain ⟨whenFree, whenHeld⟩ := booked
  by_cases held : ∃ i, Owns (config.thread i)
  · obtain ⟨i, owner⟩ := held
    rw [whenHeld i owner]
    exact List.sublist_append_left _ _
  · rw [whenFree (not_exists.mp held)]

theorem Linearized.owner_unique (linearized : Linearized moves config) :
    ∀ i j, Owns (config.thread i) → Owns (config.thread j) → i = j := by
  obtain ⟨queue, _, valid⟩ := linearized
  intro i j first second
  exact (valid.owner second).2.1 i first

variable [DecidableEq ι]

theorem Booked.step (booked : Booked moves config) {move : Move ι Phase}
    {next : Config ι Variables Phase} (taken : config.Step program move next)
    (unique : ∀ i j, Owns (config.thread i) → Owns (config.thread j) → i = j)
    (uniqueNext : ∀ i j, Owns (next.thread i) → Owns (next.thread j) → i = j) :
    Booked (moves ++ [move]) next := by
  obtain @⟨thread, shared, target, stepped⟩ := taken
  obtain ⟨whenFree, whenHeld⟩ := booked
  have books := transition_pending (transition_of_program stepped)
  rw [Booked, stored_append, returned_append]
  simp only [Config.advance_thread] at uniqueNext ⊢
  by_cases owner : Owns (config.thread thread)
  · have after : stored moves ++ (storing (config.thread thread)).toList =
        returned moves ++ (accepted target).toList ++ (pending target).toList := by
      rw [whenHeld thread owner, List.append_assoc, books, List.append_assoc]
    refine ⟨fun nobody => ?_, fun i inside => ?_⟩
    · have left := nobody thread
      rw [Function.update_self] at left
      simpa [(pending_of_not_owns left).1] using after
    · by_cases moved : i = thread
      · rw [moved, Function.update_self]
        exact after
      · rw [Function.update_of_ne moved] at inside
        exact absurd (unique i thread inside owner) moved
  -- A thread outside neither stores nor accepts, but it may take the lock.
  · obtain ⟨nonePending, noneStoring⟩ := pending_of_not_owns owner
    rw [nonePending, noneStoring] at books
    obtain ⟨noneAccepted, noneTarget⟩ := List.append_eq_nil_iff.mp books.symm
    rw [noneStoring, noneAccepted, Option.toList_none, List.append_nil, List.append_nil]
    refine ⟨fun nobody => whenFree fun j => ?_, fun i inside => ?_⟩
    · by_cases moved : j = thread
      · rw [moved]
        exact owner
      · have outside := nobody j
        rwa [Function.update_of_ne moved] at outside
    · by_cases moved : i = thread
      · subst moved
        rw [Function.update_self, noneTarget, List.append_nil]
        refine whenFree fun j other => ?_
        have different : j ≠ i := fun same => owner (same ▸ other)
        exact different (uniqueNext j i (by rwa [Function.update_of_ne different]) inside)
      · rw [Function.update_of_ne moved] at inside ⊢
        exact whenHeld i inside

/-! ## Guarded runs -/

theorem booked_of_run {origin : Variables} (locked : origin.locked = false)
    (count : origin.count = 0) (currentIndex : origin.currentIndex = 0)
    (run : Run program LockFree (initial origin) moves config) : Booked moves config := by
  induction run with
  | refl => exact ⟨fun _ => rfl, fun _ inside => inside.elim⟩
  | snoc run lockFree taken ih =>
      exact ih.step taken (linearized_of_run locked count currentIndex run).owner_unique
        (linearized_of_run locked count currentIndex (run.snoc lockFree taken)).owner_unique

theorem stored_nonneg {allowed : Config ι Variables Phase → Move ι Phase → Prop}
    {origin : Variables} (run : Run program allowed (initial origin) moves config) :
    ∀ item ∈ stored moves, 0 ≤ item := by
  induction run with
  | refl => simp [stored]
  | snoc run _ taken ih =>
      obtain @⟨thread, shared, target, stepped⟩ := taken
      intro item member
      rw [stored_append, List.mem_append] at member
      rcases member with earlier | last
      · exact ih item earlier
      · have source : storing _ = some item := Option.mem_toList.mp last
        unfold storing at source
        split at source
        · next running =>
            cases source
            exact running_item_nonneg run.reachable thread _ _ running
        · cases source

/-- In every run in which each `spin_lock_init` finds the lock free, the items
delivered are items stored by enqueues, in the same order and each at most
once, and so none is negative. -/
theorem init_delivers_stored {origin : Variables}
    (fresh : origin = boot ∨ ∃ s, origin = completedInit s)
    (run : Run program LockFree (initial origin) moves config) :
    ((history moves).filterMap delivers).Sublist (stored moves) ∧
      ∀ item ∈ (history moves).filterMap delivers, 0 ≤ item := by
  have both : Linearized moves config ∧ Booked moves config := by
    rcases fresh with rfl | ⟨s, rfl⟩
    · exact ⟨linearized_of_run rfl rfl rfl run, booked_of_run rfl rfl rfl run⟩
    · exact ⟨linearized_of_run rfl rfl rfl run, booked_of_run rfl rfl rfl run⟩
  obtain ⟨⟨queue, legal, _⟩, booked⟩ := both
  have accounted : ((history moves).filterMap delivers ++ queue).Sublist (returned moves) :=
    legal.sublist accepts delivers serve_sublist
  have delivered : ((history moves).filterMap delivers).Sublist (stored moves) :=
    (List.sublist_append_left _ _).trans (accounted.trans booked.sublist)
  exact ⟨delivered, fun item member => stored_nonneg run item (delivered.subset member)⟩

private theorem outcome_mem_history {allowed : Config ι Variables Phase → Move ι Phase → Prop}
    {origin : Variables} (run : Run program allowed (initial origin) moves config) {i : ι}
    {entry : Call × Result} (back : outcome (config.thread i) = some entry) :
    entry ∈ history moves := by
  induction run with
  | refl => cases back
  | snoc run _ taken ih =>
      obtain @⟨thread, shared, target, stepped⟩ := taken
      rw [history, List.filterMap_append, List.mem_append]
      by_cases moved : i = thread
      · rw [moved, Config.advance_thread, Function.update_self] at back
        simp [back]
      · rw [Config.advance_thread, Function.update_of_ne moved] at back
        exact .inl (ih back)

end

/-- Thread 1 enqueues 7, thread 0 empties the ring with `do_sys_kb_init`, and
thread 1 enqueues 8 and dequeues it. -/
def clearingSchedule : List (Thread × Action) :=
  (.t1, .call (.enqueue 7)) :: steps .t1 9 ++
    (.t0, .call .init) :: steps .t0 11 ++
    (.t1, .call (.enqueue 8)) :: steps .t1 9 ++
    (.t1, .call (.dequeue true)) :: steps .t1 11

theorem init_delivers_stored_clearing :
    ∃ (moves : _) (config : Config Thread _ _),
      Run program LockFree (initial boot) moves config ∧
      outcome (config.thread .t1) = some (.dequeue true, { status := 0, item := some 8 }) ∧
      ((history moves).filterMap delivers).Sublist (stored moves) := by
  obtain ⟨moves, config, run, checked⟩ := run_of_execute boot LockFree clearingSchedule
    (fun config => outcome (config.thread .t1) ==
      some (.dequeue true, { status := 0, item := some 8 })) rfl
  exact ⟨moves, config, run, beq_iff_eq.mp checked, (init_delivers_stored (.inl rfl) run).1⟩

/-- Thread 1 has found that there is an item to dequeue when thread 0 breaks
into its critical section and clears the ring. -/
def breakingSchedule : List (Thread × Action) :=
  (.t1, .call (.enqueue 7)) :: steps .t1 9 ++
    (.t1, .call (.dequeue true)) :: steps .t1 3 ++
    (.t0, .call .init) :: steps .t0 7 ++ steps .t1 8

theorem init_delivers_unstored :
    ∃ (moves : _) (config : Config Thread _ _),
      Run program (fun _ _ => True) (initial boot) moves config ∧
      (Call.dequeue true, { status := 0, item := some (-1) }) ∈ history moves ∧
      (-1 : Int) ∉ stored moves := by
  obtain ⟨moves, config, run, checked⟩ := run_of_execute boot (fun _ _ => True) breakingSchedule
    (fun config => outcome (config.thread .t1) ==
      some (.dequeue true, { status := 0, item := some (-1) })) rfl
  refine ⟨moves, config, run, outcome_mem_history run (beq_iff_eq.mp checked), ?_⟩
  intro member
  exact absurd (stored_nonneg run _ member) (by decide)

end Kboard.Syscall
