import Kboard.Procfs.RandomRead

/-!
# KboardDumper_Show

The dump loads the slots, the count, the current index and the two statistics
counters one after the other, without entering the critical section. Here it
runs beside the other operations under `SYNC_SOLUTION 1`; what it prints is
known from the values it has loaded.

The statistics counters are two arguments of one `seq_printf`, and C leaves open
which is loaded first. Here it is `PerformWriter`; nothing below depends on it.
-/

set_option autoImplicit false

namespace Kboard.Procfs

open Concurrency Queue Sync Sync.Solution1

structure Dump where
  slots : List Int
  count : Int
  currentIndex : Int
  performWriter : BitVec 32
  performReader : BitVec 32

inductive DumpPoint where
  | loadSlot (index : Nat) (slots : List Int)
  | loadCount (slots : List Int)
  | loadCurrentIndex (slots : List Int) (count : Int)
  | loadPerformWriter (slots : List Int) (count currentIndex : Int)
  | loadPerformReader (slots : List Int) (count currentIndex : Int) (performWriter : BitVec 32)

def dumpLoop (index : Nat) (slots : List Int) : DumpPoint :=
  if (index : Int) < ringBufferSize then .loadSlot index slots else .loadCount slots

def kboardDumperShow (k : Board) : DumpPoint → Control DumpPoint Dump
  | .loadSlot index slots => .goto (dumpLoop (index + 1) (slots ++ [k.ringBuffer index]))
  | .loadCount slots => .goto (.loadCurrentIndex slots k.ringBufferCount)
  | .loadCurrentIndex slots count =>
      .goto (.loadPerformWriter slots count k.ringBufferCurrentIndex)
  | .loadPerformWriter slots count currentIndex =>
      .goto (.loadPerformReader slots count currentIndex k.performWriter)
  | .loadPerformReader slots count currentIndex performWriter =>
      .ret ⟨slots, count, currentIndex, performWriter, k.performReader⟩

abbrev kboardDumper : Observer kboardOperations.Data where
  Point := DumpPoint
  Reading := Dump
  entry := dumpLoop 0 []
  load := kboardDumperShow

abbrev DumperCaller (S : SyncSolution) := Caller S kboardOperations kboardDumper

abbrev dumperProgram (S : SyncSolution) : Program (Shared S kboardOperations) (DumperCaller S) :=
  callerProgram S kboardOperations kboardDumper

def dumperInitial {ι : Type} (S : SyncSolution) (k : Board) :
    Config ι (Shared S kboardOperations) (DumperCaller S) :=
  callerInitial S kboardDumper (initializeKboard k)

/-! ## Undisturbed dumps -/

section

variable {S : SyncSolution}

/-- The dump makes its first load of the ring next. -/
def firstLoad : DumperCaller S → Bool
  | .observing (.loadSlot 0 _) => true
  | _ => false

/-- The dump is between its first and its last load of the ring. -/
def midDump : DumperCaller S → Bool
  | .observing (.loadSlot (_ + 1) _) | .observing (.loadCount _)
  | .observing (.loadCurrentIndex _ _) => true
  | _ => false

def inDump : DumperCaller S → Bool
  | .observing _ | .observed _ => true
  | .operation _ => false

end

section

variable {ι : Type} [DecidableEq ι]

/-- No writer is inside when the dump of `dumper` makes its first load, and none
stores to the ring while it is between its first and its last load of the ring. -/
def Undisturbed (dumper : ι)
    (config : Config ι (Shared solution1 kboardOperations) (DumperCaller solution1))
    (move : Move ι (DumperCaller solution1)) : Prop :=
  (move.thread = dumper → firstLoad move.source →
    ∀ thread, ¬ writerInside (config.thread thread).phase) ∧
  (storesRing move.source.phase → ¬ midDump (config.thread dumper))

/-- The steps from the call of one undisturbed dump to its return. -/
def Dumping (dumper : ι)
    (config : Config ι (Shared solution1 kboardOperations) (DumperCaller solution1))
    (move : Move ι (DumperCaller solution1)) : Prop :=
  inDump (config.thread dumper) ∧ Undisturbed dumper config move

instance [Fintype ι] (dumper : ι)
    (config : Config ι (Shared solution1 kboardOperations) (DumperCaller solution1))
    (move : Move ι (DumperCaller solution1)) : Decidable (Dumping dumper config move) :=
  inferInstanceAs (Decidable (inDump (config.thread dumper) ∧
    (move.thread = dumper → firstLoad move.source →
      ∀ thread, ¬ writerInside (config.thread thread).phase) ∧
    (storesRing move.source.phase → ¬ midDump (config.thread dumper))))

end

def firstSlots (k : Board) (count : Nat) : List Int :=
  (List.range count).map fun (slot : Nat) => k.ringBuffer slot

/-- What the dump has loaded so far are the contents of this ring. -/
def Loaded (k : Board) : DumperCaller solution1 → Prop
  | .operation _ => True
  | .observing (.loadSlot index slots) => index < 5 ∧ slots = firstSlots k index
  | .observing (.loadCount slots) => slots = firstSlots k 5
  | .observing (.loadCurrentIndex slots count) =>
      slots = firstSlots k 5 ∧ count = k.ringBufferCount
  | .observing (.loadPerformWriter slots count currentIndex)
  | .observing (.loadPerformReader slots count currentIndex _)
  | .observed ⟨slots, count, currentIndex, _, _⟩ =>
      slots = firstSlots k 5 ∧ count = k.ringBufferCount ∧
        currentIndex = k.ringBufferCurrentIndex

private theorem loaded_dumpLoop {k : Board} {index : Nat} (inRange : index ≤ 5) :
    Loaded k (.observing (dumpLoop index (firstSlots k index))) := by
  unfold dumpLoop
  split
  · next below =>
      simp only [ringBufferSize] at below
      exact ⟨by omega, rfl⟩
  · next above =>
      simp only [ringBufferSize] at above
      obtain rfl : index = 5 := by omega
      rfl

private theorem firstSlots_succ (k : Board) (count : Nat) :
    firstSlots k (count + 1) = firstSlots k count ++ [k.ringBuffer count] := by
  simp [firstSlots, List.range_succ]

/-- A load of an unchanged ring adds to the same contents. -/
private theorem Loaded.step {k k' : Board} {point : DumpPoint}
    (loaded : Loaded k (.observing point))
    (same : firstLoad (.observing point : DumperCaller solution1) ∨
      midDump (.observing point : DumperCaller solution1) → SameRing k k') :
    Loaded k (.after (kboardDumperShow k' point)) := by
  cases point with
  | loadSlot index slots =>
      obtain ⟨inRange, rfl⟩ := loaded
      have unchanged : SameRing k k' := same (by cases index <;> simp [firstLoad, midDump])
      simp only [kboardDumperShow, unchanged.1, Caller.after]
      rw [← firstSlots_succ]
      exact loaded_dumpLoop inRange
  | loadCount slots =>
      have unchanged : SameRing k k' := same (.inr rfl)
      exact ⟨loaded, unchanged.2.1⟩
  | loadCurrentIndex slots count =>
      have unchanged : SameRing k k' := same (.inr rfl)
      exact ⟨loaded.1, loaded.2, unchanged.2.2⟩
  | loadPerformWriter | loadPerformReader => exact loaded

/-- Before the first load, nothing has been loaded of any ring. -/
private theorem Loaded.of_firstLoad {k k' : Board} {caller : DumperCaller solution1}
    (loaded : Loaded k caller) (first : firstLoad caller) : Loaded k' caller := by
  cases caller with
  | operation | observed => cases first
  | observing point =>
      cases point with
      | loadSlot index slots =>
          cases index with
          | zero => exact loaded
          | succ index => cases first
      | loadCount | loadCurrentIndex | loadPerformWriter | loadPerformReader => cases first

private theorem midDump_of_after {S : SyncSolution} {k : Board} {point : DumpPoint}
    (mid : midDump (.after (kboardDumperShow k point) : DumperCaller S)) :
    firstLoad (.observing point : DumperCaller S) ∨
      midDump (.observing point : DumperCaller S) := by
  cases point with
  | loadSlot index slots => cases index <;> simp [firstLoad, midDump]
  | loadCount | loadCurrentIndex => exact .inr rfl
  | loadPerformWriter | loadPerformReader => cases mid

private theorem sameRing_of_callerStep {s s' : Shared solution1 kboardOperations}
    {source target : DumperCaller solution1} (noStore : ¬ storesRing source.phase)
    (stepped : dumperProgram solution1 s source s' target) : SameRing s.data s'.data := by
  cases transition_of_callerProgram stepped with
  | operation worked => exact sameRing_of_step noStore worked
  | call | load | collect => exact SameRing.refl _

section

variable {ι : Type} [DecidableEq ι] {origin k : Board}
  {moves : List (Move ι (DumperCaller solution1))}
  {called config next : Config ι (Shared solution1 kboardOperations) (DumperCaller solution1)}
  {dumper : ι} {move : Move ι (DumperCaller solution1)}

/-- At one moment since `called` no writer was inside and the board was `k`. -/
def TakenAt (dumper : ι)
    (called : Config ι (Shared solution1 kboardOperations) (DumperCaller solution1))
    (moves : List (Move ι (DumperCaller solution1)))
    (config : Config ι (Shared solution1 kboardOperations) (DumperCaller solution1)) (k : Board) :
    Prop :=
  ∃ earlier later moment, moves = earlier ++ later ∧
    Run (dumperProgram solution1) (Dumping dumper) called earlier moment ∧
    Run (dumperProgram solution1) (Dumping dumper) moment later config ∧
    (∀ thread, ¬ writerInside (moment.thread thread).phase) ∧ moment.shared.data = k

theorem TakenAt.snoc (taken : TakenAt dumper called moves config k)
    (dumping : Dumping dumper config move)
    (stepped : config.Step (dumperProgram solution1) move next) :
    TakenAt dumper called (moves ++ [move]) next k := by
  obtain ⟨earlier, later, moment, rfl, before, after, noWriter, same⟩ := taken
  exact ⟨earlier, later ++ [move], moment, List.append_assoc .., before,
    after.snoc dumping stepped, noWriter, same⟩

/-- The dump has loaded what the board held at one moment of its call, and the
ring still holds it until the last load. -/
def DumpKnows (dumper : ι)
    (called : Config ι (Shared solution1 kboardOperations) (DumperCaller solution1))
    (moves : List (Move ι (DumperCaller solution1)))
    (config : Config ι (Shared solution1 kboardOperations) (DumperCaller solution1)) : Prop :=
  inDump (config.thread dumper) → ∃ k, Loaded k (config.thread dumper) ∧
    (firstLoad (config.thread dumper) ∨ TakenAt dumper called moves config k ∧
      (midDump (config.thread dumper) → SameRing k config.shared.data))

/-- Steps of others leave the dump alone. -/
theorem DumpKnows.other (known : DumpKnows dumper called moves config)
    {thread : ι} {shared : Shared solution1 kboardOperations} {target : DumperCaller solution1}
    (different : dumper ≠ thread)
    (dumping : Dumping dumper config ⟨thread, config.thread thread, target⟩)
    (stepped : dumperProgram solution1 config.shared (config.thread thread) shared target) :
    DumpKnows dumper called (moves ++ [⟨thread, config.thread thread, target⟩])
      (config.advance thread shared target) := by
  have here : (config.advance thread shared target).thread dumper = config.thread dumper := by
    rw [Config.advance_thread, Function.update_of_ne different]
  intro during
  rw [here] at during ⊢
  obtain ⟨k, loaded, progress⟩ := known during
  refine ⟨k, loaded, progress.imp_right ?_⟩
  intro begun
  obtain ⟨taken, unchanged⟩ := begun
  refine ⟨taken.snoc dumping (.intro stepped), ?_⟩
  intro mid
  refine (unchanged mid).trans ?_
  have noStore : ¬ storesRing (config.thread thread).phase :=
    fun stores => dumping.2.2 stores mid
  exact sameRing_of_callerStep noStore stepped

/-- A step of the dump itself. -/
theorem DumpKnows.own (known : DumpKnows dumper called moves config)
    {shared : Shared solution1 kboardOperations} {target : DumperCaller solution1}
    (run : Run (dumperProgram solution1) (Dumping dumper) called moves config)
    (dumping : Dumping dumper config ⟨dumper, config.thread dumper, target⟩)
    (stepped : dumperProgram solution1 config.shared (config.thread dumper) shared target) :
    DumpKnows dumper called (moves ++ [⟨dumper, config.thread dumper, target⟩])
      (config.advance dumper shared target) := by
  intro during
  have here : (config.advance dumper shared target).thread dumper = target := by simp
  rw [here] at during ⊢
  have taken : config.Step (dumperProgram solution1) _ _ := .intro stepped
  have before := known dumping.1
  generalize source : config.thread dumper = caller at stepped before
  cases transition_of_callerProgram stepped with
  | operation | collect => cases during
  | call => exact ⟨config.shared.data, loaded_dumpLoop (Nat.zero_le 5), .inl rfl⟩
  | @load _ point =>
      rw [source] at taken dumping
      obtain ⟨k, loaded, progress⟩ := before
      by_cases first : firstLoad (.observing point : DumperCaller solution1)
      · -- The board is taken as it stands before this load.
        have noWriter := dumping.2.1 rfl first
        exact ⟨config.shared.data, (loaded.of_firstLoad first).step fun _ => SameRing.refl _,
          .inr ⟨⟨moves, _, config, rfl, run, Run.snoc .refl dumping taken, noWriter, rfl⟩,
            fun _ => SameRing.refl _⟩⟩
      · obtain ⟨earlier, unchanged⟩ := progress.resolve_left first
        refine ⟨k, loaded.step fun ring => unchanged (ring.resolve_left first),
          .inr ⟨earlier.snoc dumping taken, ?_⟩⟩
        intro mid
        exact unchanged ((midDump_of_after mid).resolve_left first)

theorem dumpKnows_of_run (begins : called.thread dumper = .observing kboardDumper.entry)
    (run : Run (dumperProgram solution1) (Dumping dumper) called moves config) :
    DumpKnows dumper called moves config := by
  induction run with
  | refl =>
      intro _
      rw [begins]
      exact ⟨called.shared.data, loaded_dumpLoop (Nat.zero_le 5), .inl rfl⟩
  | snoc run dumping taken ih =>
      obtain @⟨thread, shared, target, stepped⟩ := taken
      by_cases own : dumper = thread
      · subst own
        exact ih.own run dumping stepped
      · exact ih.other own dumping stepped

/-! ## Consistency -/

/-- The count is the number of slots in use, and these are the slots from the
current index on. -/
structure Consistent (dump : Dump) : Prop where
  count : dump.count = dump.slots.countP (· ≠ ringBufferInitValue)
  slots : ∀ slot : Nat, slot < 5 → (dump.slots[slot]? ≠ some ringBufferInitValue ↔
    ∃ offset : Nat, (offset : Int) < dump.count ∧
      (slot : Int) = (dump.currentIndex + offset) % ringBufferSize)

theorem TakenAt.represents [Fintype ι]
    (reachable : Reachable (dumperProgram solution1) (dumperInitial solution1 origin) called)
    (taken : TakenAt dumper called moves config k) :
    ∃ queue completed, Represents k queue completed ∧ ∀ item ∈ queue, 0 ≤ item := by
  obtain ⟨earlier, later, moment, _, run, _, noWriter, rfl⟩ := taken
  obtain ⟨protocolMoves, protocolRun⟩ := caller_simulates.reachable (reachable.run run)
  obtain ⟨queue, guard, legal, valid⟩ := linearized_of_run (k := origin) protocolRun
  exact ⟨queue, _, (valid.free noWriter).2, queue_nonneg legal⟩

/-- A window of `count` slots from `current` on has `count` slots. -/
private theorem countP_window : ∀ current < 5, ∀ count ≤ 5, (List.range 5).countP
    (fun (slot : Nat) => decide (((slot : Int) - (current : Nat)) % 5 < (count : Nat))) =
      count := by
  decide

theorem Represents.used_iff {queue : List Int} {completed : Nat}
    (represents : Represents k queue completed) (items : ∀ item ∈ queue, 0 ≤ item) {slot : Nat}
    (inRange : slot < 5) : k.ringBuffer slot ≠ ringBufferInitValue ↔
      ((slot : Int) - k.ringBufferCurrentIndex) % 5 < k.ringBufferCount := by
  have shows := represents.slotShows items (Int.natCast_nonneg slot)
    (show (slot : Int) < 5 by omega)
  rw [Ne, shows.blank_iff, not_le]
  rfl

theorem Represents.consistent {queue : List Int} {completed : Nat}
    (represents : Represents k queue completed) (items : ∀ item ∈ queue, 0 ≤ item)
    (performWriter performReader : BitVec 32) :
    Consistent ⟨firstSlots k 5, k.ringBufferCount, k.ringBufferCurrentIndex, performWriter,
      performReader⟩ := by
  have used := fun slot (inRange : slot < 5) => represents.used_iff items inRange
  obtain ⟨window, count, _⟩ := represents
  have lengthLe : (queue.length : Int) ≤ 5 := window.holds.lengthLe
  have currentLt : k.ringBufferCurrentIndex < 5 := window.holds.currentLt
  obtain ⟨current, currentEq⟩ := Int.eq_ofNat_of_zero_le window.holds.currentNonneg
  rw [count, currentEq] at used ⊢
  rw [currentEq] at currentLt
  constructor
  · have same : (firstSlots k 5).countP (fun item => decide (item ≠ ringBufferInitValue)) =
        (List.range 5).countP (fun (slot : Nat) =>
          decide (((slot : Int) - (current : Nat)) % 5 < (queue.length : Nat))) := by
      rw [firstSlots, List.countP_map]
      apply List.countP_congr
      intro slot member
      simpa using used slot (List.mem_range.mp member)
    simp only
    rw [same, countP_window current (by omega) queue.length (by omega)]
  · intro slot inRange
    have here : (firstSlots k 5)[slot]? = some (k.ringBuffer slot) := by
      simp [firstSlots, inRange]
    simp only [here, ne_eq, Option.some.injEq]
    rw [← ne_eq, used slot inRange, ringBufferSize]
    constructor
    · intro below
      exact ⟨(((slot : Int) - current) % 5).toNat, by omega, by omega⟩
    · intro offset
      obtain ⟨offset, below, position⟩ := offset
      omega

/-- A dump that is called in a reachable state and is undisturbed from then on is
what the board held at one moment of its call with no writer inside, and so it is
consistent. -/
theorem dump_snapshot [Fintype ι]
    (reachable : Reachable (dumperProgram solution1) (dumperInitial solution1 origin) called)
    (begins : called.thread dumper = .observing kboardDumper.entry)
    (run : Run (dumperProgram solution1) (Dumping dumper) called moves config) {dump : Dump}
    (done : config.thread dumper = .observed dump) :
    (∃ earlier later moment, moves = earlier ++ later ∧
      Run (dumperProgram solution1) (Dumping dumper) called earlier moment ∧
      Run (dumperProgram solution1) (Dumping dumper) moment later config ∧
      (∀ thread, ¬ writerInside (moment.thread thread).phase) ∧
      dump.slots = (List.range 5).map (fun (slot : Nat) => moment.shared.data.ringBuffer slot) ∧
      dump.count = moment.shared.data.ringBufferCount ∧
      dump.currentIndex = moment.shared.data.ringBufferCurrentIndex) ∧
    Consistent dump := by
  obtain ⟨k, loaded, progress⟩ := dumpKnows_of_run begins run (by rw [done]; rfl)
  rw [done] at loaded progress
  obtain ⟨taken, _⟩ := progress.resolve_left Bool.false_ne_true
  obtain ⟨queue, completed, represents, items⟩ := taken.represents reachable
  obtain ⟨earlier, later, moment, split, before, after, noWriter, rfl⟩ := taken
  obtain ⟨slots, count, currentIndex, performWriter, performReader⟩ := dump
  obtain ⟨rfl, rfl, rfl⟩ := loaded
  exact ⟨⟨earlier, later, moment, split, before, after, noWriter, rfl, rfl, rfl⟩,
    represents.consistent items performWriter performReader⟩

/-- Thread 0 has written 7 and thread 1 calls a dump. -/
def callSchedule : List (Thread × CallerAction kboardOperations) :=
  (.t0, .operation (.callWriter (.write 7 2))) :: operates .t0 10 ++ [(.t1, .observe)]

def calledConfig : Config Thread (Shared solution1 kboardOperations) (DumperCaller solution1) :=
  (execute callerStep (fun _ _ => True) (dumperInitial solution1 Board.zero) callSchedule).get rfl

/-- Thread 2 enters to take 7 out while thread 1 dumps, and has not stored to the
ring when the dump is done. -/
def dumpSchedule : List (Thread × CallerAction kboardOperations) :=
  (.t1, .observe) :: (.t2, .operation (.callWriter .read)) :: operates .t2 4 ++ observes .t1 8

def dumpConfig : Config Thread (Shared solution1 kboardOperations) (DumperCaller solution1) :=
  (execute callerStep (Dumping .t1) calledConfig dumpSchedule).get rfl

theorem dump_snapshot_entering :
    ∃ moves, Run (dumperProgram solution1) (Dumping .t1) calledConfig moves dumpConfig ∧
      writerInside (dumpConfig.thread .t2).phase ∧
      ∃ dump, dumpConfig.thread .t1 = .observed dump ∧ dump.count = 1 ∧ Consistent dump := by
  have called : Reachable (dumperProgram solution1) (dumperInitial solution1 Board.zero)
      calledConfig :=
    (execute_sound (show execute callerStep (fun _ _ => True)
      (dumperInitial solution1 Board.zero) callSchedule = some calledConfig from rfl)).reachable
  have run := execute_sound
    (show execute callerStep (Dumping .t1) calledConfig dumpSchedule = some dumpConfig from rfl)
  have begins : calledConfig.thread .t1 = .observing kboardDumper.entry := rfl
  have done : dumpConfig.thread .t1 = .observed ⟨[7, -1, -1, -1, -1], 1, 0, 2, 0⟩ := rfl
  exact ⟨_, run, rfl, _, done, rfl, (dump_snapshot called begins run done).2⟩

/-- Thread 0 starts to write 7; thread 1 dumps the slots before and the count
after its stores. -/
def tornSchedule : List (Thread × CallerAction kboardOperations) :=
  (.t0, .operation (.callWriter (.write 7 2))) :: (.t1, .observe) :: operates .t0 4 ++
    observes .t1 5 ++ operates .t0 5 ++ observes .t1 4

theorem dump_torn :
    ∃ moves config, Run (dumperProgram solution1) (fun _ _ => True)
        (dumperInitial solution1 Board.zero) moves (config : Config Thread _ _) ∧
      ∃ dump, config.thread .t1 = .observed dump ∧
        dump.count ≠ dump.slots.countP (· ≠ ringBufferInitValue) := by
  have run := execute_sound (Option.some_get (show (execute callerStep (fun _ _ => True)
    (dumperInitial solution1 Board.zero) tornSchedule).isSome = true from rfl)).symm
  refine ⟨_, _, run, ⟨[-1, -1, -1, -1, -1], 1, 0, 1, 0⟩, rfl, ?_⟩
  decide

end

end Kboard.Procfs
