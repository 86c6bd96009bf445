import Kboard.Queue.Ring
import Kboard.Sync.Solution1Properties

/-! Under `SYNC_SOLUTION 1` the ring of the kboard module is a queue. A writer
operation takes effect when it leaves its critical section. Before that the
queue stands still while the ring goes through half-updated states, each of
which is known from the program point of the one writer inside. -/

set_option autoImplicit false

namespace Kboard.Procfs

open Concurrency Queue Sync Sync.Solution1

/-! ## The queue -/

/-- A queue of capacity 5 that answers like the two writer operations. -/
def serve (queue : List Int) : WriterCall → WriterResult × List Int
  | .write item length =>
      if queue.length < 5 then (⟨length, none⟩, queue ++ [(item : Int)])
      else (⟨-eperm, none⟩, queue)
  | .read =>
      match queue with
      | [] => (⟨-eperm, none⟩, [])
      | item :: rest => (⟨0, some item⟩, rest)

def accepts : WriterCall × WriterResult → Option Int
  | (.write item _, result) => if 0 ≤ result.status then some item else none
  | (.read, _) => none

def delivers (entry : WriterCall × WriterResult) : Option Int := entry.2.item

theorem serve_accounts {queue next : List Int} {call : WriterCall} {result : WriterResult}
    (served : serve queue call = (result, next)) :
    queue ++ (accepts (call, result)).toList = (delivers (call, result)).toList ++ next := by
  cases call with
  | write item length =>
      simp only [serve] at served
      split at served
      · cases served
        simp [accepts, delivers]
      · cases served
        simp [accepts, delivers, eperm]
  | read =>
      cases queue with
      | nil => cases served; rfl
      | cons item rest => cases served; simp [accepts, delivers]

/-! ## The ring -/

structure Window (ring : Int → Int) (current : Int) (queue : List Int) : Prop where
  holds : Holds ringBufferSize ring current queue
  cleared : Cleared ringBufferSize ringBufferInitValue ring current queue

/-- `completed` writer operations have left this queue. -/
def Represents (k : Board) (queue : List Int) (completed : Nat) : Prop :=
  Window k.ringBuffer k.ringBufferCurrentIndex queue ∧
    k.ringBufferCount = queue.length ∧ k.performWriter = BitVec.ofNat 32 completed

/-- The oldest item has been cleared and the current index not yet moved on. -/
def Popping (k : Board) (queue rest : List Int) (item : Int) (completed : Nat) : Prop :=
  queue = item :: rest ∧ 0 ≤ k.ringBufferCurrentIndex ∧
    Window k.ringBuffer ((k.ringBufferCurrentIndex + 1) % ringBufferSize) rest ∧
    k.performWriter = BitVec.ofNat 32 completed

theorem Window.push {ring : Int → Int} {current : Int} {queue : List Int} {item : Int}
    (window : Window ring current queue) (room : (queue.length : Int) < ringBufferSize) :
    Window (Function.update ring (tail ringBufferSize current queue) item) current
      (queue ++ [item]) :=
  ⟨window.holds.push room, window.cleared.push window.holds room⟩

theorem Window.pop {ring : Int → Int} {current : Int} {rest : List Int} {item : Int}
    (window : Window ring current (item :: rest)) :
    Window (Function.update ring current ringBufferInitValue) ((current + 1) % ringBufferSize)
      rest :=
  ⟨window.holds.pop, window.cleared.pop window.holds⟩

/-! ## The writer operations -/

def WriteKnows (k : Board) (queue : List Int) (completed : Nat) (item : Nat) : WritePoint → Prop
  | .loadPerformWriter => Represents k queue completed
  | .storePerformWriter loaded => loaded = k.performWriter ∧ Represents k queue completed
  | .testCount => Represents k queue (completed + 1)
  | .loadCurrentIndex => Represents k queue (completed + 1) ∧ queue.length < 5
  | .loadTailCount index =>
      index = k.ringBufferCurrentIndex ∧ Represents k queue (completed + 1) ∧ queue.length < 5
  | .storeItem slot => slot = tail ringBufferSize k.ringBufferCurrentIndex queue ∧
      Represents k queue (completed + 1) ∧ queue.length < 5
  | .loadCount => Window k.ringBuffer k.ringBufferCurrentIndex (queue ++ [(item : Int)]) ∧
      k.ringBufferCount = queue.length ∧
      k.performWriter = BitVec.ofNat 32 (completed + 1) ∧ queue.length < 5
  | .storeCount loaded => Window k.ringBuffer k.ringBufferCurrentIndex (queue ++ [(item : Int)]) ∧
      loaded = queue.length ∧
      k.performWriter = BitVec.ofNat 32 (completed + 1) ∧ queue.length < 5

def ShowKnows (k : Board) (queue : List Int) (completed : Nat) : ShowPoint → Prop
  | .loadPerformWriter => Represents k queue completed
  | .storePerformWriter loaded => loaded = k.performWriter ∧ Represents k queue completed
  | .testCount => Represents k queue (completed + 1)
  | .loadItemIndex => Represents k queue (completed + 1) ∧ queue ≠ []
  | .loadItem index =>
      index = k.ringBufferCurrentIndex ∧ Represents k queue (completed + 1) ∧ queue ≠ []
  | .loadClearIndex item => Represents k queue (completed + 1) ∧ ∃ rest, queue = item :: rest
  | .clearSlot item index => index = k.ringBufferCurrentIndex ∧
      Represents k queue (completed + 1) ∧ ∃ rest, queue = item :: rest
  | .loadCount item =>
      ∃ rest, Popping k queue rest item (completed + 1) ∧ k.ringBufferCount = queue.length
  | .storeCount item loaded =>
      ∃ rest, Popping k queue rest item (completed + 1) ∧ loaded = queue.length
  | .loadCurrentIndex item =>
      ∃ rest, Popping k queue rest item (completed + 1) ∧ k.ringBufferCount = rest.length
  | .storeCurrentIndex item loaded => ∃ rest, Popping k queue rest item (completed + 1) ∧
      k.ringBufferCount = rest.length ∧ loaded = k.ringBufferCurrentIndex

/-- The operation has done its work: the ring holds the queue that is to come. -/
def Served (k : Board) (queue : List Int) (completed : Nat) (call : WriterCall)
    (result : WriterResult) : Prop :=
  ∃ next, serve queue call = (result, next) ∧ Represents k next (completed + 1)

def Continues {Point : Type} (knows : Board → Point → Prop) (done : Board → WriterResult → Prop)
    (outcome : Board × Control Point WriterResult) : Prop :=
  match outcome.2 with
  | .goto point => knows outcome.1 point
  | .ret result => done outcome.1 result

variable {k : Board} {queue : List Int} {completed : Nat}

theorem performWriter_succ {performed : BitVec 32}
    (counted : performed = BitVec.ofNat 32 completed) :
    performed + 1 = BitVec.ofNat 32 (completed + 1) := by
  rw [counted, BitVec.ofNat_add]
  rfl

private theorem write_continues {item length : Nat} {point : WritePoint}
    (known : WriteKnows k queue completed item point) :
    Continues (fun k => WriteKnows k queue completed item)
      (fun k => Served k queue completed (.write item length))
      (kboardWriterWrite item length k point) := by
  cases point with
  | loadPerformWriter => exact ⟨rfl, known⟩
  | storePerformWriter loaded =>
      obtain ⟨rfl, window, count, performed⟩ := known
      exact ⟨window, count, performWriter_succ performed⟩
  | testCount =>
      have count : k.ringBufferCount = queue.length := known.2.1
      simp only [Continues, kboardWriterWrite]
      by_cases full : k.ringBufferCount ≥ ringBufferSize
      · rw [if_pos full]
        refine ⟨queue, ?_, known⟩
        simp only [ringBufferSize] at full
        rw [serve, if_neg (by omega)]
      · rw [if_neg full]
        simp only [ringBufferSize] at full
        exact ⟨known, by omega⟩
  | loadCurrentIndex => exact ⟨rfl, known⟩
  | loadTailCount index =>
      obtain ⟨rfl, represents, room⟩ := known
      refine ⟨?_, represents, room⟩
      have nonneg := represents.1.holds.currentNonneg
      rw [represents.2.1, Int.tmod_eq_emod_of_nonneg (by omega)]
      rfl
  | storeItem slot =>
      obtain ⟨rfl, ⟨window, count, performed⟩, room⟩ := known
      exact ⟨window.push (by simp only [ringBufferSize]; omega), count, performed, room⟩
  | loadCount => exact known
  | storeCount loaded =>
      obtain ⟨window, rfl, performed, room⟩ := known
      refine ⟨queue ++ [(item : Int)], ?_, window, ?_, performed⟩
      · rw [serve, if_pos room]
      · simp [kboardWriterWrite]

private theorem show_continues {point : ShowPoint} (known : ShowKnows k queue completed point) :
    Continues (fun k => ShowKnows k queue completed) (fun k => Served k queue completed .read)
      (kboardWriterShow k point) := by
  cases point with
  | loadPerformWriter => exact ⟨rfl, known⟩
  | storePerformWriter loaded =>
      obtain ⟨rfl, window, count, performed⟩ := known
      exact ⟨window, count, performWriter_succ performed⟩
  | testCount =>
      have count : k.ringBufferCount = queue.length := known.2.1
      simp only [Continues, kboardWriterShow]
      by_cases empty : k.ringBufferCount ≤ 0
      · rw [if_pos empty]
        obtain rfl : queue = [] := List.eq_nil_of_length_eq_zero (by omega)
        exact ⟨[], rfl, known⟩
      · rw [if_neg empty]
        refine ⟨known, ?_⟩
        rintro rfl
        exact empty count.le
  | loadItemIndex => exact ⟨rfl, known⟩
  | loadItem index =>
      obtain ⟨rfl, represents, nonempty⟩ := known
      obtain ⟨item, rest, rfl⟩ := List.exists_cons_of_ne_nil nonempty
      exact ⟨represents, rest, by rw [represents.1.holds.head]⟩
  | loadClearIndex item => exact ⟨rfl, known⟩
  | clearSlot item index =>
      obtain ⟨rfl, ⟨window, count, performed⟩, rest, rfl⟩ := known
      exact ⟨rest, ⟨rfl, window.holds.currentNonneg, window.pop, performed⟩, count⟩
  | loadCount item =>
      obtain ⟨rest, popping, count⟩ := known
      exact ⟨rest, popping, count⟩
  | storeCount item loaded =>
      obtain ⟨rest, ⟨rfl, nonneg, window, performed⟩, rfl⟩ := known
      refine ⟨rest, ⟨rfl, nonneg, window, performed⟩, ?_⟩
      simp [kboardWriterShow]
  | loadCurrentIndex item =>
      obtain ⟨rest, popping, count⟩ := known
      exact ⟨rest, popping, count, rfl⟩
  | storeCurrentIndex item loaded =>
      obtain ⟨rest, ⟨rfl, nonneg, window, performed⟩, count, rfl⟩ := known
      refine ⟨rest, rfl, ?_, count, performed⟩
      rw [← Int.tmod_eq_emod_of_nonneg (by omega)] at window
      exact window

/-! ## Whole runs -/

def Knows (k : Board) (queue : List Int) (completed : Nat) :
    Phase solution1 kboardOperations → Prop
  | .criticalWriter call (.write item length point) =>
      call = .write item length ∧ WriteKnows k queue completed item point
  | .criticalWriter call (.read point) => call = .read ∧ ShowKnows k queue completed point
  | .leaveWriter call result _ => Served k queue completed call result
  | _ => True

theorem worked_knows {call : WriterCall} {body : WriterBody}
    (known : Knows k queue completed (.criticalWriter call body)) :
    Knows (writerStep k body).1 queue completed (.workedWriter call (writerStep k body).2) := by
  cases body with
  | write item length point =>
      obtain ⟨rfl, known⟩ := known
      have continues : Continues _ _ (kboardWriterWrite item length k point) :=
        write_continues known
      simp only [writerStep]
      generalize kboardWriterWrite item length k point = outcome at continues ⊢
      obtain ⟨next, control⟩ := outcome
      cases control with
      | goto point => exact ⟨rfl, continues⟩
      | ret result => exact continues
  | read point =>
      obtain ⟨rfl, known⟩ := known
      have continues := show_continues known
      simp only [writerStep]
      generalize kboardWriterShow k point = outcome at continues ⊢
      obtain ⟨next, control⟩ := outcome
      cases control with
      | goto point => exact ⟨rfl, continues⟩
      | ret result => exact continues

theorem readerStep_eq (k : Board) (body : ReaderBody) :
    ∃ performReader, (readerStep k body).1 = { k with performReader } := by
  obtain ⟨randomIndex, point⟩ := body
  cases point with
  | loadPerformReader => exact ⟨k.performReader, rfl⟩
  | storePerformReader loaded => exact ⟨loaded + 1, rfl⟩
  | loadItem => exact ⟨k.performReader, rfl⟩

/-- The call and the response of a writer operation that leaves its critical
section with this step. -/
def completion {ι : Type} (move : Move ι (Phase solution1 kboardOperations)) :
    Option (WriterCall × WriterResult) :=
  match move.source, move.target with
  | .leaveWriter call result _, .idle => some (call, result)
  | _, _ => none

def history {ι : Type} (moves : List (Move ι (Phase solution1 kboardOperations))) :
    List (WriterCall × WriterResult) :=
  moves.filterMap completion

section

variable {ι : Type} {moves : List (Move ι (Phase solution1 kboardOperations))}
  {config : Config ι (Shared solution1 kboardOperations) (Phase solution1 kboardOperations)}

/-- The writer operations completed so far are those of the queue, and the ring
holds it unless a writer is inside. The guard is free exactly when none is. -/
def Linearized (moves : List (Move ι (Phase solution1 kboardOperations)))
    (config : Config ι (Shared solution1 kboardOperations) (Phase solution1 kboardOperations)) :
    Prop :=
  ∃ queue guard, Legal serve [] (history moves) queue ∧
    LockInvariant guard (fun phase => writerInside phase)
      (Represents config.shared.data queue (history moves).length)
      (Knows config.shared.data queue (history moves).length) config.thread

variable [DecidableEq ι] {thread : ι} {shared : Shared solution1 kboardOperations}
  {target : Phase solution1 kboardOperations}

omit [DecidableEq ι] in
private theorem history_append {move : Move ι (Phase solution1 kboardOperations)}
    (incomplete : completion move = none) : history (moves ++ [move]) = history moves := by
  simp [history, incomplete]

theorem Linearized.bystander (linearized : Linearized moves config)
    (before : ¬ writerInside (config.thread thread)) (after : ¬ writerInside target)
    (sameData : ∃ performReader, shared.data = { config.shared.data with performReader }) :
    Linearized (moves ++ [⟨thread, config.thread thread, target⟩])
      (config.advance thread shared target) := by
  obtain ⟨queue, guard, legal, valid⟩ := linearized
  obtain ⟨performReader, sameData⟩ := sameData
  have incomplete : completion ⟨thread, config.thread thread, target⟩ = none := by
    unfold completion
    split
    · next leaving _ =>
        simp only at leaving
        rw [leaving] at before
        exact absurd rfl before
    · rfl
  rw [Linearized, history_append incomplete]
  refine ⟨queue, guard, legal, valid.step (.bystander before after rfl ?_ ?_)⟩
  · rw [Config.advance_shared, sameData]
    exact id
  · rw [Config.advance_shared, sameData]
    exact fun _ => id

theorem Linearized.enter (linearized : Linearized moves config) {call : WriterCall}
    {point : EnterWriter} (source : config.thread thread = .enterWriter call point)
    (alone : ∀ other, other ≠ thread → ¬ writerInside (config.thread other))
    (sameData : shared.data = config.shared.data) :
    Linearized (moves ++ [⟨thread, config.thread thread, .criticalWriter call (writerStart call)⟩])
      (config.advance thread shared (.criticalWriter call (writerStart call))) := by
  obtain ⟨queue, guard, legal, valid⟩ := linearized
  have nobody : ∀ other, ¬ writerInside (config.thread other) := by
    intro other
    by_cases same : other = thread
    · rw [same, source]
      exact Bool.false_ne_true
    · exact alone other same
  rw [Linearized, history_append (by rw [source]; rfl)]
  obtain ⟨free, -⟩ := valid.free nobody
  refine ⟨queue, 0, legal, valid.step (.acquire free rfl fun represents => ?_)⟩
  rw [Config.advance_shared, sameData]
  cases call with
  | write item length => exact ⟨rfl, represents⟩
  | read => exact ⟨rfl, represents⟩

theorem Linearized.work (linearized : Linearized moves config) {call : WriterCall}
    {body : WriterBody} (source : config.thread thread = .criticalWriter call body)
    (data : shared.data = (writerStep config.shared.data body).1)
    (targetEq : target = .workedWriter call (writerStep config.shared.data body).2) :
    Linearized (moves ++ [⟨thread, config.thread thread, target⟩])
      (config.advance thread shared target) := by
  obtain ⟨queue, guard, legal, valid⟩ := linearized
  rw [Linearized, history_append (by rw [source]; rfl)]
  refine ⟨queue, guard, legal, valid.step (.work ?_ ?_ rfl fun known => ?_)⟩
  · rw [source]
    rfl
  · rw [targetEq]
    cases (writerStep config.shared.data body).2 <;> rfl
  · rw [source] at known
    rw [Config.advance_shared, data, targetEq]
    exact worked_knows known

theorem Linearized.leave (linearized : Linearized moves config) {call : WriterCall}
    {result : WriterResult} {point : LeaveWriter}
    (source : config.thread thread = .leaveWriter call result point)
    (sameData : shared.data = config.shared.data) :
    Linearized (moves ++ [⟨thread, config.thread thread, .idle⟩])
      (config.advance thread shared .idle) := by
  obtain ⟨queue, guard, legal, valid⟩ := linearized
  have inside : writerInside (config.thread thread) := by rw [source]; rfl
  obtain ⟨_, _, known⟩ := valid.owner inside
  rw [source] at known
  obtain ⟨next, served, represents⟩ := known
  have extended : history (moves ++ [⟨thread, config.thread thread, .idle⟩]) =
      history moves ++ [(call, result)] := by
    simp [history, completion, source]
  refine ⟨next, guard + 1, ?_, ?_⟩
  · rw [extended]
    exact legal.snoc served
  · refine valid.step (.release inside Bool.false_ne_true rfl fun _ => ?_)
    rw [extended, Config.advance_shared, sameData, List.length_append]
    exact represents

theorem Linearized.step [Fintype ι] (linearized : Linearized moves config) {data : Board}
    {move : Move ι (Phase solution1 kboardOperations)}
    {next : Config ι (Shared solution1 kboardOperations) (Phase solution1 kboardOperations)}
    (taken : config.Step (program solution1 kboardOperations) move next)
    (reachable : Reachable (program solution1 kboardOperations) (initial solution1 data) next) :
    Linearized (moves ++ [move]) next := by
  obtain @⟨thread, shared, target, stepped⟩ := taken
  have unique (inside : writerInside target) :
      ∀ other, other ≠ thread → ¬ writerInside (config.thread other) := by
    intro other different otherInside
    apply different
    apply writerInside_unique reachable
    · simpa using inside
    · simpa [different] using otherInside
  generalize source : config.thread thread = phase at stepped
  cases transition_of_program stepped with
  | callWriter | callReader =>
      rw [← source]
      exact linearized.bystander (by simp [source, writerInside]) Bool.false_ne_true ⟨_, rfl⟩
  | @enterWriter _ call point sync control taken =>
      cases point
      obtain ⟨rest, positive, same⟩ := down_map_eq_some_iff.mp taken
      cases same
      rw [← source]
      exact linearized.enter source (unique rfl) rfl
  | criticalWriter =>
      rw [← source]
      exact linearized.work source rfl rfl
  | @leaveWriter _ call result point sync control taken =>
      cases point
      cases taken
      rw [← source]
      exact linearized.leave source rfl
  | enterReader =>
      rw [← source]
      exact linearized.bystander (by simp [source, writerInside])
        (not_writerInside_enteredReader _ _) ⟨_, rfl⟩
  | criticalReader =>
      rw [← source]
      exact linearized.bystander (by simp [source, writerInside])
        (not_writerInside_workedReader _ _) (readerStep_eq _ _)
  | leaveReader =>
      rw [← source]
      exact linearized.bystander (by simp [source, writerInside])
        (not_writerInside_leftReader _ _ _) ⟨_, rfl⟩

theorem initializeKboard_represents (k : Board) : Represents (initializeKboard k) [] 0 := by
  refine ⟨⟨.empty le_rfl (show (0 : Int) < 5 by decide), ?_⟩, rfl, rfl⟩
  intro slot nonneg below _
  simp only [ringBufferSize] at below
  obtain rfl | rfl | rfl | rfl | rfl :
    slot = 0 ∨ slot = 1 ∨ slot = 2 ∨ slot = 3 ∨ slot = 4 := by omega
  all_goals rfl

theorem linearized_of_run [Fintype ι] {k : Board}
    (run : Run (program solution1 kboardOperations) (fun _ _ => True)
      (initial solution1 (initializeKboard k)) moves config) : Linearized moves config := by
  induction run with
  | refl => exact ⟨[], 1, .nil, .inl ⟨rfl, fun _ => Bool.false_ne_true,
      initializeKboard_represents k⟩⟩
  | snoc run permitted taken ih => exact ih.step taken (run.snoc permitted taken).reachable

/-- The module is a linearizable queue: in the order in which they leave the
critical section, the writer operations answer as the sequential queue does, so
the items taken out and those still queued are the items put in, in that order.
Whenever no writer is inside, the ring holds exactly the queued items. -/
theorem solution1_linearizable_fifo [Fintype ι] {k : Board}
    (run : Run (program solution1 kboardOperations) (fun _ _ => True)
      (initial solution1 (initializeKboard k)) moves config) :
    ∃ queue, Legal serve [] (history moves) queue ∧
      (history moves).filterMap accepts = (history moves).filterMap delivers ++ queue ∧
      ((∀ thread, ¬ writerInside (config.thread thread)) →
        Represents config.shared.data queue (history moves).length) := by
  obtain ⟨queue, guard, legal, valid⟩ := linearized_of_run run
  exact ⟨queue, legal, legal.conserves accepts delivers fun _ => serve_accounts,
    fun nobody => (valid.free nobody).2⟩

/-- Thread 0 writes an item; thread 1 reads it back while thread 0 waits to write
another. -/
def writingSchedule : List (Thread × Action kboardOperations) :=
  (.t0, .callWriter (.write 7 2)) :: steps .t0 10 ++
    (.t0, .callWriter (.write 8 2)) :: (.t1, .callWriter .read) :: steps .t1 13 ++ steps .t0 10

theorem solution1_linearizable_fifo_writing :
    ∃ (moves : _) (config : Config Thread _ _),
      Run (program solution1 kboardOperations) (fun _ _ => True)
        (initial solution1 (initializeKboard Board.zero)) moves config ∧
      config.shared.data.ringBufferCount = 1 ∧
      ∃ queue, Legal serve [] (history moves) queue ∧
        (history moves).filterMap accepts = (history moves).filterMap delivers ++ queue := by
  obtain ⟨moves, config, run, checked⟩ := run_of_execute solution1 (initializeKboard Board.zero)
    (fun _ _ => True) writingSchedule (fun config => config.shared.data.ringBufferCount == 1) rfl
  obtain ⟨queue, legal, conserved, _⟩ := solution1_linearizable_fifo run
  exact ⟨moves, config, run, beq_iff_eq.mp checked, queue, legal, conserved⟩

end

end Kboard.Procfs
