import Kboard.Procfs.Linearization

/-! What a reader may see under `SYNC_SOLUTION 1`. It addresses a slot of the
ring without looking at the count or the current index. While it is inside, the
ring is the circular window of the queue and stands still, so the slot holds a
queued item or the blank value, as its distance from the current index tells. -/

set_option autoImplicit false

namespace Kboard.Procfs

open Concurrency Queue Sync Sync.Solution1

/-! ## Slots -/

/-- What a slot shows, by how many places it is behind the oldest item. -/
structure SlotShows (k : Board) (queue : List Int) (slot value : Int) : Prop where
  blank_iff : value = ringBufferInitValue ↔
    k.ringBufferCount ≤ (slot - k.ringBufferCurrentIndex) % ringBufferSize
  item : (slot - k.ringBufferCurrentIndex) % ringBufferSize < k.ringBufferCount →
    queue[((slot - k.ringBufferCurrentIndex) % ringBufferSize).toNat]? = some value ∧ 0 ≤ value

theorem Represents.slotShows {k : Board} {queue : List Int} {completed : Nat} {slot : Int}
    (represents : Represents k queue completed) (items : ∀ item ∈ queue, 0 ≤ item)
    (nonneg : 0 ≤ slot) (below : slot < ringBufferSize) :
    SlotShows k queue slot (k.ringBuffer slot) := by
  obtain ⟨window, count, _⟩ := represents
  have distance : 0 ≤ (slot - k.ringBufferCurrentIndex) % ringBufferSize :=
    Int.emod_nonneg _ (by decide)
  have filled := window.holds.filled slot nonneg below
  have cleared := window.cleared slot nonneg below
  simp only [age] at filled cleared
  by_cases queued : ((slot - k.ringBufferCurrentIndex) % ringBufferSize).toNat < queue.length
  · have here := List.getElem?_eq_getElem queued
    have value := filled _ here
    have nonnegative := items _ (List.getElem_mem queued)
    rw [← value] at here nonnegative
    constructor
    · rw [ringBufferInitValue]
      omega
    · intro _
      exact ⟨here, nonnegative⟩
  · have blank := cleared (by omega)
    constructor
    · rw [blank, count]
      omega
    · omega

theorem queue_nonneg {history : List (WriterCall × WriterResult)} {queue : List Int}
    (legal : Legal serve [] history queue) : ∀ item ∈ queue, 0 ≤ item := by
  induction legal with
  | nil => simp
  | @snoc history queue next call result _ served ih =>
      cases call with
      | write item length =>
          simp only [serve] at served
          split at served
          · cases served
            intro other member
            rcases List.mem_append.mp member with earlier | last
            · exact ih other earlier
            · rw [List.mem_singleton.mp last]
              exact Int.natCast_nonneg item
          · cases served
            exact ih
      | read =>
          cases queue with
          | nil => cases served; exact ih
          | cons item rest =>
              cases served
              exact fun other member => ih other (List.mem_cons_of_mem _ member)

/-! ## The ring while a reader is inside -/

/-- A writer stores to `RingBuffer`, `RingBufferCount` or `RingBufferCurrentIndex` next. -/
def storesRing : Phase solution1 kboardOperations → Bool
  | .criticalWriter _ (.write _ _ (.storeItem _)) | .criticalWriter _ (.write _ _ (.storeCount _))
  | .criticalWriter _ (.read (.clearSlot _ _)) | .criticalWriter _ (.read (.storeCount _ _))
  | .criticalWriter _ (.read (.storeCurrentIndex _ _)) => true
  | _ => false

private theorem writerInside_of_storesRing {phase : Phase solution1 kboardOperations}
    (stores : storesRing phase) : writerInside phase := by
  cases phase with
  | criticalWriter => rfl
  | idle | enterWriter | leaveWriter | enterReader | criticalReader | leaveReader => cases stores

theorem sameRing_of_step {s s' : Shared solution1 kboardOperations}
    {source target : Phase solution1 kboardOperations} (noStore : ¬ storesRing source)
    (stepped : program solution1 kboardOperations s source s' target) :
    SameRing s.data s'.data := by
  cases transition_of_program stepped with
  | callWriter | callReader | enterWriter | enterReader | leaveReader | leaveWriter =>
      exact SameRing.refl _
  | @criticalWriter _ call body =>
      cases body with
      | write item length point =>
          rw [writerStep_write_data]
          cases point with
          | storeItem | storeCount => exact absurd rfl noStore
          | loadPerformWriter | storePerformWriter | testCount | loadCurrentIndex | loadTailCount
          | loadCount => exact ⟨rfl, rfl, rfl⟩
      | read point =>
          rw [writerStep_read_data]
          cases point with
          | clearSlot | storeCount | storeCurrentIndex => exact absurd rfl noStore
          | loadPerformWriter | storePerformWriter | testCount | loadItemIndex | loadItem
          | loadClearIndex | loadCount | loadCurrentIndex => exact ⟨rfl, rfl, rfl⟩
  | @criticalReader _ call body =>
      obtain ⟨performReader, same⟩ := readerStep_eq s.data body
      simp only [same]
      exact SameRing.refl _

section

variable {ι : Type} [Fintype ι] [DecidableEq ι] {k : Board}
  {moves further : List (Move ι (Phase solution1 kboardOperations))}
  {config next : Config ι (Shared solution1 kboardOperations) (Phase solution1 kboardOperations)}

private theorem sameRing_while_reading {data : Board}
    (reachable : Reachable (program solution1 kboardOperations) (initial solution1 data) config)
    {reader : ι}
    (run : Run (program solution1 kboardOperations)
      (fun config _ => readerInside (config.thread reader)) config further next) :
    SameRing config.shared.data next.shared.data := by
  induction run with
  | refl => exact SameRing.refl _
  | snoc earlier inside taken ih =>
      obtain @⟨thread, shared, target, stepped⟩ := taken
      refine ih.trans (sameRing_of_step ?_ stepped)
      intro stores
      exact writerInside_excludes_readerInside (reachable.run earlier)
        (writerInside_of_storesRing stores) inside

/-- The index that was drawn stays with the reader. -/
def KeepsIndex : Phase solution1 kboardOperations → Prop
  | .criticalReader randomBytes body => body.randomIndex = randomBytes.toNat % 5
  | _ => True

theorem keepsIndex_of_step {s s' : Shared solution1 kboardOperations}
    {source target : Phase solution1 kboardOperations} (kept : KeepsIndex source)
    (stepped : program solution1 kboardOperations s source s' target) : KeepsIndex target := by
  cases transition_of_program stepped with
  | callWriter | callReader => trivial
  | @enterWriter _ call point sync control taken => cases control <;> trivial
  | @criticalWriter _ call body =>
      generalize kboardOperations.writerStep s.data body = outcome
      obtain ⟨next, control⟩ := outcome
      cases control <;> trivial
  | @leaveWriter _ call result point sync control taken => cases control <;> trivial
  | @enterReader _ call point sync control taken => cases control <;> trivial
  | @criticalReader _ call body =>
      obtain ⟨randomIndex, point⟩ := body
      cases point with
      | loadPerformReader | storePerformReader => exact kept
      | loadItem => trivial
  | @leaveReader _ call result point sync control taken => cases control <;> trivial

omit [Fintype ι] in
theorem keepsIndex_of_reachable {data : Board}
    (reachable : Reachable (program solution1 kboardOperations) (initial solution1 data) config) :
    ∀ thread, KeepsIndex (config.thread thread) := by
  refine reachable.preserves (fun config => ∀ thread, KeepsIndex (config.thread thread))
    (fun _ => trivial) ?_
  intro config mover shared target kept stepped thread
  by_cases moved : thread = mover
  · subst moved
    rw [Config.advance_thread, Function.update_self]
    exact keepsIndex_of_step (kept thread) stepped
  · rw [Config.advance_thread, Function.update_of_ne moved]
    exact kept thread

omit [Fintype ι] in
/-- The step in which a reader gets its result is the load of its slot. -/
theorem load_of_step {reader : ι} {randomBytes : BitVec 32} {body : ReaderBody}
    {result : ReaderResult}
    (taken : config.Step (program solution1 kboardOperations)
      ⟨reader, .criticalReader randomBytes body, .leaveReader randomBytes result .downMutex⟩ next) :
    config.thread reader = .criticalReader randomBytes body ∧
      result = ⟨body.randomIndex, config.shared.data.ringBuffer body.randomIndex⟩ := by
  obtain ⟨here, shared, ⟨action, stepped⟩, _⟩ := taken.inversion
  refine ⟨here, ?_⟩
  obtain ⟨randomIndex, point⟩ := body
  cases action with
  | callWriter | callReader => cases stepped
  | advance =>
      cases point with
      | loadPerformReader | storePerformReader => cases stepped
      | loadItem => cases stepped; rfl

/-- A load of a random slot gives -1 exactly for the slots outside the window of
the queue, and otherwise the item of that age; and the ring stands still from
the entry of a reader to its exit. -/
theorem solution1_random_read
    (run : Run (program solution1 kboardOperations) (fun _ _ => True)
      (initial solution1 (initializeKboard k)) moves config) (reader : ι) :
    (∀ randomBytes body result loaded,
      config.Step (program solution1 kboardOperations)
        ⟨reader, .criticalReader randomBytes body, .leaveReader randomBytes result .downMutex⟩
        loaded →
      result.index = randomBytes.toNat % 5 ∧
        ∃ queue, Legal serve [] (history moves) queue ∧
          (history moves).filterMap accepts = (history moves).filterMap delivers ++ queue ∧
          SlotShows config.shared.data queue result.index result.item) ∧
      ∀ further next, Run (program solution1 kboardOperations)
        (fun config _ => readerInside (config.thread reader)) config further next →
        SameRing config.shared.data next.shared.data := by
  constructor
  · intro randomBytes body result loaded taken
    obtain ⟨here, loads⟩ := load_of_step taken
    subst loads
    have kept := keepsIndex_of_reachable run.reachable reader
    rw [here] at kept
    have index : body.randomIndex = randomBytes.toNat % 5 := kept
    obtain ⟨queue, guard, legal, valid⟩ := linearized_of_run run
    have noWriter : ∀ thread, ¬ writerInside (config.thread thread) := by
      intro thread writing
      have reading : readerInside (config.thread reader) := by rw [here]; rfl
      exact writerInside_excludes_readerInside run.reachable writing reading
    obtain ⟨_, represents⟩ := valid.free noWriter
    refine ⟨index, queue, legal, legal.conserves accepts delivers fun _ => serve_accounts, ?_⟩
    refine represents.slotShows (queue_nonneg legal) ?_ ?_
    · simp only [index]
      omega
    · simp only [index, ringBufferSize]
      omega
  · intro further next reading
    exact sameRing_while_reading run.reachable reading

/-- Thread 0 writes 7, and thread 1 is about to load slot 0. -/
def loadingConfig : Config Thread (Shared solution1 kboardOperations)
    (Phase solution1 kboardOperations) :=
  (execute step (fun _ _ => True) (initial solution1 (initializeKboard Board.zero))
    ((.t0, .callWriter (.write 7 2)) :: steps .t0 10 ++
      (.t1, .callReader 5) :: steps .t1 8)).get rfl

theorem solution1_random_read_item :
    ∃ moves, Run (program solution1 kboardOperations) (fun _ _ => True)
        (initial solution1 (initializeKboard Board.zero)) moves loadingConfig ∧
      ∃ queue, Legal serve [] (history moves) queue ∧
        SlotShows loadingConfig.shared.data queue 0 7 := by
  obtain ⟨moves, run⟩ : Reachable (program solution1 kboardOperations)
    (initial solution1 (initializeKboard Board.zero)) loadingConfig := reachable_get _
  have loads : program solution1 kboardOperations loadingConfig.shared
      (loadingConfig.thread .t1) loadingConfig.shared
      (.leaveReader 5 ⟨0, 7⟩ .downMutex) := ⟨.advance, rfl⟩
  obtain ⟨_, queue, legal, _, shows⟩ :=
    (solution1_random_read run .t1).1 5 ⟨0, .loadItem⟩ ⟨0, 7⟩ _ (.intro loads)
  exact ⟨moves, run, queue, legal, shows⟩

end

end Kboard.Procfs
