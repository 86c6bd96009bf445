import Kboard.Procfs.Clipboard

/-!
# In the middle of an operation

A writer alone in its critical section finds the ring as the clipboard had it
when it came in, and as its own steps have changed it since. So whatever slot is
read or written is one of the ring.
-/

set_option autoImplicit false

namespace Kboard.Procfs

open Concurrency Queue Sync

/-- What is about to be stored comes from the count as it is. -/
def CountLoaded (k : Board) : WriterBody → Prop
  | .write _ _ (.storeCount loaded) | .read (.storeCount _ loaded) => loaded = k.ringBufferCount
  | _ => True

theorem countLoaded_of_step {k next : Board} {body further : WriterBody}
    (worked : writerStep k body = (next, .goto further)) : CountLoaded next further := by
  cases body with
  | write item length point =>
      cases point with
      | testCount =>
          by_cases full : k.ringBufferCount ≥ ringBufferSize
          · simp only [writerStep, kboardWriterWrite, if_pos full] at worked
            cases worked
          · simp only [writerStep, kboardWriterWrite, if_neg full] at worked
            cases worked
            trivial
      | loadCount => cases worked; exact rfl
      | storeCount => cases worked
      | loadPerformWriter | storePerformWriter | loadCurrentIndex | loadTailCount | storeItem =>
          cases worked
          trivial
  | read point =>
      cases point with
      | testCount =>
          by_cases empty : k.ringBufferCount ≤ 0
          · simp only [writerStep, kboardWriterShow, if_pos empty] at worked
            cases worked
          · simp only [writerStep, kboardWriterShow, if_neg empty] at worked
            cases worked
            trivial
      | loadCount => cases worked; exact rfl
      | storeCurrentIndex => cases worked
      | loadPerformWriter | storePerformWriter | loadItemIndex | loadItem | loadClearIndex
      | clearSlot | storeCount | loadCurrentIndex =>
          cases worked
          trivial

/-- What is known of a body that began with this clipboard on the board. -/
theorem knows_of_reaches {k now : Board} {c : Clipboard} {completed : Nat} {call : WriterCall}
    {body : WriterBody} (reaches : Reaches writerStep k (writerStart call) now body)
    (shown : Shows k c completed) :
    Knows now (c.items.map Int.ofNat) completed (.criticalWriter call body) ∧
      CountLoaded now body := by
  let holds (k : Board) (body : WriterBody) : Prop :=
    Knows k (c.items.map Int.ofNat) completed (.criticalWriter call body) ∧ CountLoaded k body
  have began : holds k (writerStart call) := by
    cases call with
    | write => exact ⟨⟨rfl, shown.represents⟩, trivial⟩
    | read => exact ⟨⟨rfl, shown.represents⟩, trivial⟩
  have goes {k next : Board} {body further : WriterBody} (known : holds k body)
      (worked : writerStep k body = (next, .goto further)) : holds next further := by
    have continued := worked_knows known.1
    rw [worked] at continued
    exact ⟨continued, countLoaded_of_step worked⟩
  exact reaches.preserves began goes

/-! ## The slots -/

variable {S : SyncSolution}

/-- The slots that the next step of the thread loads or stores. -/
def accesses : Phase S kboardOperations → List Int
  | .criticalWriter _ (.write _ _ (.storeItem slot)) => [slot]
  | .criticalWriter _ (.read (.loadItem index))
  | .criticalWriter _ (.read (.clearSlot _ index)) => [index]
  | .criticalReader _ ⟨randomIndex, .loadItem⟩ => [randomIndex]
  | _ => []

def InRing (slot : Int) : Prop := 0 ≤ slot ∧ slot < ringBufferSize

theorem Represents.current_inRing {k : Board} {queue : List Int} {completed : Nat}
    (represents : Represents k queue completed) : InRing k.ringBufferCurrentIndex :=
  ⟨represents.1.holds.currentNonneg, represents.1.holds.currentLt⟩

private theorem accesses_of_knows {k : Board} {queue : List Int} {completed : Nat}
    {call : WriterCall}
    {body : WriterBody} (known : Knows k queue completed (.criticalWriter call body)) :
    ∀ slot ∈ accesses (.criticalWriter call body : Phase S kboardOperations), InRing slot := by
  cases body with
  | write item length point =>
      obtain ⟨_, known⟩ := known
      cases point with
      | storeItem slot =>
          intro accessed member
          obtain ⟨same, _⟩ := known
          rw [List.mem_singleton.mp member, same]
          exact ⟨Int.emod_nonneg _ (by decide), Int.emod_lt_of_pos _ (by decide)⟩
      | loadPerformWriter | storePerformWriter | testCount | loadCurrentIndex | loadTailCount
      | loadCount | storeCount => exact fun _ member => absurd member List.not_mem_nil
  | read point =>
      obtain ⟨_, known⟩ := known
      cases point with
      | loadItem index =>
          intro accessed member
          obtain ⟨same, represents, _⟩ := known
          rw [List.mem_singleton.mp member, same]
          exact represents.current_inRing
      | clearSlot item index =>
          intro accessed member
          obtain ⟨same, represents, _⟩ := known
          rw [List.mem_singleton.mp member, same]
          exact represents.current_inRing
      | loadPerformWriter | storePerformWriter | testCount | loadItemIndex | loadClearIndex
      | loadCount | storeCount | loadCurrentIndex | storeCurrentIndex =>
          exact fun _ member => absurd member List.not_mem_nil

/-- A reader reduces its random index before it enters. -/
private theorem accesses_of_reader {randomBytes : BitVec 32} {body : ReaderBody}
    (drawn : DrawnIndex (.criticalReader randomBytes body : Phase S kboardOperations)) :
    ∀ slot ∈ accesses (.criticalReader randomBytes body : Phase S kboardOperations),
      InRing slot := by
  obtain ⟨randomIndex, point⟩ := body
  cases point with
  | loadItem =>
      intro accessed member
      have same : randomIndex = (randomBytes.toNat % 5 : Nat) := drawn
      rw [List.mem_singleton.mp member, same, InRing, ringBufferSize]
      omega
  | loadPerformReader | storePerformReader => exact fun _ member => absurd member List.not_mem_nil

section

variable {ι : Type} [DecidableEq ι] {k : Board}
  {moves : List (Move ι (Phase S kboardOperations))}
  {config : Config ι (Shared S kboardOperations) (Phase S kboardOperations)}

theorem accesses_of_exclusive
    {allowed : Config ι (Shared S kboardOperations) (Phase S kboardOperations) →
      Move ι (Phase S kboardOperations) → Prop}
    (run : Run (program S kboardOperations) allowed (initial S (initializeKboard k)) moves config)
    (exclusive : ∀ {moves config}, Run (program S kboardOperations) allowed
      (initial S (initializeKboard k)) moves config → Exclusive config) (i : ι) :
    ∀ slot ∈ accesses (config.thread i), InRing slot := by
  have drawn := drawnIndex_of_reachable run.reachable i
  cases phase : config.thread i with
  | criticalWriter call body =>
      have here : (kboardView S).body (config.thread i) = some (call, body) := by
        rw [phase]
        rfl
      obtain ⟨state, serial, underway⟩ := (serialized run exclusive).underway here
      obtain ⟨c, _, shown⟩ := legal_of_serial serial
      exact accesses_of_knows (knows_of_reaches underway.reaches shown).1
  | criticalReader randomBytes body =>
      rw [phase] at drawn
      exact accesses_of_reader drawn
  | idle | enterWriter | leaveWriter | enterReader | leaveReader =>
      exact fun _ member => absurd member List.not_mem_nil

end

section

variable {ι : Type} [Fintype ι] [DecidableEq ι] {k : Board}

theorem accesses_in_ring (S : ReadersWriters)
    {moves : List (Move ι (Phase S.toSyncSolution kboardOperations))}
    {config : Config ι (Shared S.toSyncSolution kboardOperations) _}
    (run : Run (program S.toSyncSolution kboardOperations) (fun _ _ => True)
      (initial S.toSyncSolution (initializeKboard k)) moves config) (i : ι) :
    ∀ slot ∈ accesses (config.thread i), InRing slot :=
  accesses_of_exclusive run (fun run => S.exclusive run.reachable) i

/-- Thread 0 has pasted, and thread 1 is about to store an item in slot 1. -/
def storingSchedule : List (Thread × Action kboardOperations) :=
  (.t0, .callWriter (.write 7 2)) :: steps .t0 10 ++ (.t0, .callWriter .read) :: steps .t0 13 ++
    (.t1, .callWriter (.write 8 2)) :: steps .t1 6

theorem accesses_in_ring_storing :
    ∃ (moves : _) (config : Config Thread _ _),
      Run (program Solution1.solution1 kboardOperations) (fun _ _ => True)
        (initial Solution1.solution1 (initializeKboard Board.zero)) moves config ∧
      accesses (config.thread .t1) = [1] ∧
      ∀ slot ∈ accesses (config.thread .t1), InRing slot := by
  obtain ⟨moves, config, run, checked⟩ := run_of_execute Solution1.solution1
    (initializeKboard Board.zero) (fun _ _ => True) storingSchedule
    (fun config => accesses (config.thread .t1) == [1]) rfl
  exact ⟨moves, config, run, eq_of_beq checked, accesses_in_ring ReadersWriters.solution1 run .t1⟩

/-- The current index has come to 3 and one item is left when thread 0 leaves:
readers 1 and 2 are let in and leave one after the other, each of them waking a
writer, so threads 3 and 0 both paste the last item. -/
def lastItemSchedule : List (Thread × Action kboardOperations) :=
  let copyAndPaste := (.t0, .callWriter (.write 7 2)) :: steps .t0 22 ++
    (.t0, .callWriter .read) :: steps .t0 25
  copyAndPaste ++ copyAndPaste ++ copyAndPaste ++
    (.t0, .callWriter (.write 7 2)) :: steps .t0 8 ++ (.t1, .callReader 0) :: steps .t1 6 ++
    (.t2, .callReader 0) :: steps .t2 6 ++ (.t3, .callWriter .read) :: steps .t3 5 ++
    steps .t0 18 ++ (.t0, .callWriter .read) :: steps .t0 7 ++ steps .t1 17 ++ steps .t3 10 ++
    steps .t2 17 ++ steps .t0 10 ++ steps .t3 14 ++ steps .t0 14 ++
    (.t1, .callWriter (.write 8 2)) :: steps .t1 13

set_option maxRecDepth 4000 in
/-- Under `SYNC_SOLUTION 3` a write may store its item before the ring. -/
theorem solution3_leaves_ring : ∃ config : Config Thread _ _,
    Reachable (program Solution3.solution3 kboardOperations)
      (initial Solution3.solution3 (initializeKboard Board.zero)) config ∧
    accesses (config.thread .t1) = [-1] := by
  obtain ⟨config, reachable, checked⟩ := reachable_of_execute Solution3.solution3
    (initializeKboard Board.zero) lastItemSchedule
    (fun config => accesses (config.thread .t1) == [-1]) rfl
  exact ⟨config, reachable, eq_of_beq checked⟩

end

end Kboard.Procfs
