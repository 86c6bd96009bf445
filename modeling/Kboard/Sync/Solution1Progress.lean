import Kboard.Sync.Solution1Properties

/-! Progress in `SYNC_SOLUTION 1`: some thread in an operation can always go on,
and while a reader is inside, readers let each other in without any writer's
help. -/

set_option autoImplicit false

namespace Kboard.Sync.Solution1

open Concurrency
open Procfs (steps)

variable {B : Operations}

/-! ## Deadlock freedom -/

section

variable {s : Shared solution1 B} {phase : Phase solution1 B}

private theorem ready_of_owner (owner : (view phase).Owns)
    (room : view phase = .enterRoom → 0 < s.sync.semaphoreWriter) : ready s phase := by
  cases phase with
  | enterReader call point =>
      cases point with
      | downWriter => simp [ready, step, enterCriticalSectionReader, down_isSome_iff, room rfl]
      | downMutex => exact absurd owner id
      | loadReaderCount | storeReaderCount | testReaderCount | upMutex => rfl
  | leaveReader call result point =>
      cases point with
      | downMutex => exact absurd owner id
      | loadReaderCount | storeReaderCount | testReaderCount | upWriter | upMutex => rfl
  | idle | enterWriter | criticalWriter | leaveWriter | criticalReader => exact absurd owner id

private theorem writerInside_of_view (occupying : view phase = .occupying) :
    writerInside phase := by
  cases phase with
  | criticalWriter => rfl
  | leaveWriter call result point => cases point; rfl
  | enterReader call point => cases point <;> cases occupying
  | leaveReader call result point => cases point <;> cases occupying
  | idle | enterWriter | criticalReader => cases occupying

private theorem ready_of_writerInside (inside : writerInside phase) : ready s phase := by
  cases phase with
  | criticalWriter => rfl
  | leaveWriter call result point => cases point; rfl
  | idle | enterWriter | enterReader | criticalReader | leaveReader => cases inside

private theorem ready_of_inside (inside : view phase = .inside) (free : 0 < s.sync.semaphoreMutex) :
    ready s phase := by
  cases phase with
  | criticalReader => rfl
  | leaveReader call result point =>
      cases point with
      | downMutex => simp [ready, step, leaveCriticalSectionReader, down_isSome_iff, free]
      | loadReaderCount | storeReaderCount | testReaderCount | upWriter | upMutex => cases inside
  | enterReader call point => cases point <;> cases inside
  | idle | enterWriter | criticalWriter | leaveWriter => cases inside

theorem ready_of_free (inside : phase.Inside) (mutex : 0 < s.sync.semaphoreMutex)
    (writer : 0 < s.sync.semaphoreWriter) : ready s phase := by
  cases phase with
  | idle => exact absurd rfl inside
  | criticalWriter | criticalReader => rfl
  | enterWriter call point =>
      cases point
      simp [ready, step, enterCriticalSectionWriter, down_isSome_iff, writer]
  | leaveWriter call result point => cases point; rfl
  | enterReader call point =>
      cases point <;>
        simp [ready, step, enterCriticalSectionReader, down_isSome_iff, mutex, writer]
  | leaveReader call result point =>
      cases point <;> simp [ready, step, leaveCriticalSectionReader, down_isSome_iff, mutex]

end

variable {ι : Type} [Fintype ι] [DecidableEq ι]
  {data : B.Data} {config : Config ι (Shared solution1 B) (Phase solution1 B)}

theorem exists_ready
    (reachable : Reachable (program solution1 B) (initial solution1 data) config)
    {thread : ι} (inside : (config.thread thread).Inside) :
    ∃ other, ready config.shared (config.thread other) := by
  have progress := (lightswitch_invariant reachable).progress
  simp only [Config.map, share] at progress
  rcases progress with ⟨i, owner, room⟩ | ⟨i, occupying⟩ | ⟨mutex, writer | ⟨i, settled⟩⟩
  · exact ⟨i, ready_of_owner owner room⟩
  · exact ⟨i, ready_of_writerInside (writerInside_of_view occupying)⟩
  · exact ⟨thread, ready_of_free inside (by omega) writer⟩
  · exact ⟨i, ready_of_inside settled (by omega)⟩

/-- Whenever some thread is in an operation, one such thread can take a step. -/
theorem solution1_no_deadlock
    (reachable : Reachable (program solution1 B) (initial solution1 data) config)
    {thread : ι} (inside : (config.thread thread).Inside) :
    ∃ other, (config.thread other).Inside ∧ config.Enabled (program solution1 B) other := by
  obtain ⟨other, goesOn⟩ := exists_ready reachable inside
  exact ⟨other, enabled_of_ready goesOn⟩

theorem solution1_no_deadlock_writing :
    ∃ config : Config Thread _ _,
      Reachable (program solution1 Procfs.kboardOperations)
        (initial solution1 Procfs.Board.zero) config ∧
      ¬ ready config.shared (config.thread .t1) ∧
      ∃ other, (config.thread other).Inside ∧
        config.Enabled (program solution1 Procfs.kboardOperations) other := by
  obtain ⟨config, reachable, checked⟩ := reachable_of_execute solution1 Procfs.Board.zero
    writingSchedule (fun config => ready config.shared (config.thread .t0) &&
      !ready config.shared (config.thread .t1)) rfl
  simp only [Bool.and_eq_true, Bool.not_eq_true'] at checked
  exact ⟨config, reachable, by simp [checked.2],
    solution1_no_deadlock reachable (enabled_of_ready checked.1).1⟩

/-! ## Reader preference

The owner of `SemaphoreMutex` is a reader on its way in or out. When no writer
is inside, `SemaphoreWriter` is free whenever this owner needs it, so the owner
can give the mutex back on its own. -/

def inReader : Phase solution1 B → Bool
  | .enterReader _ _ | .criticalReader _ _ | .leaveReader _ _ _ => true
  | _ => false

/-- The reader has returned from its Enter and its Leave has not taken a step. -/
def readerStaying : Phase solution1 B → Bool
  | .criticalReader _ _ | .leaveReader _ _ .downMutex => true
  | _ => false

/-- How many steps an owner of the mutex has left before it gives it back. -/
def pending : Phase solution1 B → Nat
  | .enterReader _ .loadReaderCount | .leaveReader _ _ .loadReaderCount => 5
  | .enterReader _ (.storeReaderCount _) | .leaveReader _ _ (.storeReaderCount _) => 4
  | .enterReader _ .testReaderCount | .leaveReader _ _ .testReaderCount => 3
  | .enterReader _ .downWriter | .leaveReader _ _ .upWriter => 2
  | .enterReader _ .upMutex | .leaveReader _ _ .upMutex => 1
  | _ => 0

/-- Where an owner of the mutex stands once it has given it back. -/
def destination : Phase solution1 B → Phase solution1 B
  | .enterReader call _ => .criticalReader call (B.readerStart call)
  | .leaveReader _ _ _ => .idle
  | phase => phase

private theorem destination_of_owner {phase : Phase solution1 B} (owner : (view phase).Owns) :
    ¬ writerInside (destination phase) ∧ ¬ (view (destination phase)).Owns := by
  cases phase with
  | enterReader call point | leaveReader call result point => exact ⟨Bool.false_ne_true, id⟩
  | idle | enterWriter | criticalWriter | leaveWriter | criticalReader => exact absurd owner id

private theorem not_owns_of_readerStaying {phase : Phase solution1 B}
    (staying : readerStaying phase) :
    ¬ (view phase).Owns := by
  cases phase with
  | criticalReader => exact id
  | leaveReader call result point =>
      cases point with
      | downMutex => exact id
      | loadReaderCount | storeReaderCount | testReaderCount | upWriter | upMutex => cases staying
  | idle | enterWriter | enterReader | criticalWriter | leaveWriter => cases staying

/-- What one step of the mutex's owner does to its place. -/
structure Advances (source target : Phase solution1 B) : Prop where
  fewer : pending target < pending source
  sameDestination : destination target = destination source
  reader : inReader source
  notWriter : ¬ writerInside target
  arrives : ¬ (view target).Owns → target = destination source

theorem Advances.within {source target : Phase solution1 B} (owner : (view target).Owns)
    (fewer : pending target < pending source)
    (sameDestination : destination target = destination source) (reader : inReader source) :
    Advances source target where
  fewer := fewer
  sameDestination := sameDestination
  reader := reader
  notWriter := by
    intro inside
    rw [view_of_writerInside inside] at owner
    exact owner
  arrives := fun free => absurd owner free

theorem advances_of_step {s s' : Shared solution1 B} {source target : Phase solution1 B}
    (owner : (view source).Owns) (stepped : program solution1 B s source s' target) :
    Advances source target := by
  cases transition_of_program stepped with
  | callWriter | callReader | enterWriter | criticalWriter | leaveWriter | criticalReader =>
      exact absurd owner id
  | @enterReader _ call point sync control taken =>
      cases point with
      | downMutex => exact absurd owner id
      | loadReaderCount | storeReaderCount =>
          cases taken
          exact .within trivial (by simp [pending, Phase.enteredReader]) rfl rfl
      | testReaderCount =>
          cases taken
          split
          · exact .within trivial (by simp [pending, Phase.enteredReader]) rfl rfl
          · exact .within trivial (by simp [pending, Phase.enteredReader]) rfl rfl
      | downWriter =>
          obtain ⟨rest, positive, same⟩ := down_map_eq_some_iff.mp taken
          cases same
          exact .within trivial (by simp [pending, Phase.enteredReader]) rfl rfl
      | upMutex =>
          cases taken
          exact ⟨Nat.one_pos, rfl, rfl, Bool.false_ne_true, fun _ => rfl⟩
  | @leaveReader _ call result point sync control taken =>
      cases point with
      | downMutex => exact absurd owner id
      | loadReaderCount | storeReaderCount | upWriter =>
          cases taken
          exact .within trivial (by simp [pending, Phase.leftReader]) rfl rfl
      | testReaderCount =>
          cases taken
          split
          · exact .within trivial (by simp [pending, Phase.leftReader]) rfl rfl
          · exact .within trivial (by simp [pending, Phase.leftReader]) rfl rfl
      | upMutex =>
          cases taken
          exact ⟨Nat.one_pos, rfl, rfl, Bool.false_ne_true, fun _ => rfl⟩

/-- Without a writer inside, the unit of `SemaphoreWriter` is there for the
first reader that asks for it. -/
theorem room_of_no_writer
    (reachable : Reachable (program solution1 B) (initial solution1 data) config)
    (noWriter : ∀ thread, ¬ writerInside (config.thread thread)) {holder : ι}
    (waits : view (config.thread holder) = .enterRoom) :
    0 < config.shared.sync.semaphoreWriter := by
  have owner : (view (config.thread holder)).Owns := by rw [waits]; trivial
  have occupants : tally Lightswitch.Stage.occupant (config.map share view).thread = 0 := by
    apply tally_eq_zero
    intro thread
    have vacant : view (config.thread thread) ≠ .occupying :=
      fun occupying => noWriter thread (writerInside_of_view occupying)
    simp only [Config.map]
    cases stage : view (config.thread thread) <;> first | rfl | exact absurd stage vacant
  obtain ⟨_, _, known⟩ := (lightswitch_invariant reachable).owner owner
  have unit : Lightswitch.units (config.map share view) = 1 := by
    have stage : (config.map share view).thread holder = .enterRoom := waits
    rw [stage] at known
    exact known.2.2
  rw [Lightswitch.units, occupants] at unit
  simp only [Config.map, share] at unit
  omega

/-- The owner of the mutex can take a step, and then stands nearer its release. -/
theorem owner_advances
    (reachable : Reachable (program solution1 B) (initial solution1 data) config)
    (noWriter : ∀ thread, ¬ writerInside (config.thread thread)) {holder : ι}
    (owner : (view (config.thread holder)).Owns) :
    ∃ shared target, program solution1 B config.shared (config.thread holder) shared target ∧
      Advances (config.thread holder) target := by
  have goesOn := ready_of_owner owner (room_of_no_writer reachable noWriter)
  obtain ⟨⟨shared, target⟩, taken⟩ := Option.isSome_iff_exists.mp goesOn
  exact ⟨shared, target, ⟨.advance, taken⟩, advances_of_step owner ⟨.advance, taken⟩⟩

/-- A run that moves nobody but one reader. -/
abbrev SoloRun (reader : ι) :=
  Run (program solution1 B) fun _ move => inReader move.source ∧ move.thread = reader

omit [Fintype ι] in
theorem SoloRun.single {reader : ι} {shared : Shared solution1 B} {target : Phase solution1 B}
    (inside : inReader (config.thread reader))
    (stepped : program solution1 B config.shared (config.thread reader) shared target) :
    SoloRun reader config [⟨reader, config.thread reader, target⟩]
      (config.advance reader shared target) :=
  .snoc .refl ⟨inside, rfl⟩ (.intro stepped)

omit [Fintype ι] in
private theorem noWriter_advance (noWriter : ∀ thread, ¬ writerInside (config.thread thread))
    {mover : ι} {shared : Shared solution1 B} {target : Phase solution1 B}
    (outside : ¬ writerInside target) (thread : ι) :
    ¬ writerInside ((config.advance mover shared target).thread thread) := by
  by_cases moved : thread = mover
  · subst moved
    simpa using outside
  · simpa [moved] using noWriter thread

/-- The owner of the mutex gives it back by steps of its own. -/
theorem owner_releases {count : Nat}
    (reachable : Reachable (program solution1 B) (initial solution1 data) config)
    (noWriter : ∀ thread, ¬ writerInside (config.thread thread)) {holder : ι}
    (owner : (view (config.thread holder)).Owns)
    (bounded : pending (config.thread holder) ≤ count) :
    ∃ moves shared, SoloRun holder config moves
      (config.advance holder shared (destination (config.thread holder))) := by
  -- By induction on a bound for the steps that are left.
  induction count generalizing config with
  | zero =>
      obtain ⟨_, target, _, advances⟩ := owner_advances reachable noWriter owner
      have fewer := advances.fewer
      omega
  | succ count ih =>
      obtain ⟨middle, target, stepped, advances⟩ := owner_advances reachable noWriter owner
      have fewer := advances.fewer
      have first := SoloRun.single advances.reader stepped
      by_cases still : (view target).Owns
      · have noWriterOnward : ∀ thread,
            ¬ writerInside ((config.advance holder middle target).thread thread) :=
          noWriter_advance noWriter advances.notWriter
        obtain ⟨moves, shared, rest⟩ := ih (reachable.run first) noWriterOnward
          (by simpa using still) (by simp only [Config.advance_thread, Function.update_self]; omega)
        simp only [Config.advance_thread, Function.update_self, Config.advance_advance,
          advances.sameDestination] at rest
        exact ⟨_, shared, first.append rest⟩
      · rw [advances.arrives still] at first
        exact ⟨_, middle, first⟩

/-- A reader in its Enter gets in by steps of its own unless another reader
owns the mutex. -/
theorem reader_enters_alone
    (reachable : Reachable (program solution1 B) (initial solution1 data) config)
    (noWriter : ∀ thread, ¬ writerInside (config.thread thread)) {waiting : ι}
    (others : ∀ thread, (view (config.thread thread)).Owns → thread = waiting)
    {call : B.ReaderCall} {point : EnterReader}
    (waits : config.thread waiting = .enterReader call point) :
    ∃ moves shared, SoloRun waiting config moves
      (config.advance waiting shared (.criticalReader call (B.readerStart call))) := by
  by_cases owner : (view (config.thread waiting)).Owns
  · have released := owner_releases reachable noWriter owner le_rfl
    rw [waits] at released
    exact released
  · have free : config.shared.sync.semaphoreMutex = 1 := by
      refine ((lightswitch_invariant reachable).free ?_).1
      intro thread threadOwner
      obtain rfl := others thread threadOwner
      exact owner threadOwner
    have first : point = .downMutex := by
      rw [waits] at owner
      cases point <;> first | rfl | exact absurd trivial owner
    subst first
    obtain ⟨locked, stepped⟩ : ∃ locked, program solution1 B config.shared
        (config.thread waiting) locked (.enterReader call .loadReaderCount) := by
      refine ⟨{ config.shared with sync := { config.shared.sync with semaphoreMutex := 0 } },
        .advance, ?_⟩
      rw [waits]
      simp only [step, enterCriticalSectionReader, free, down, Option.map_some]
      rfl
    have lock := SoloRun.single (by rw [waits]; rfl) stepped
    have noWriterOnward : ∀ thread, ¬ writerInside
        ((config.advance waiting locked (.enterReader call .loadReaderCount)).thread thread) :=
      noWriter_advance noWriter Bool.false_ne_true
    have owner : (view ((config.advance waiting locked
        (.enterReader call .loadReaderCount)).thread waiting)).Owns := by
      rw [Config.advance_thread, Function.update_self]
      trivial
    obtain ⟨moves, shared, rest⟩ :=
      owner_releases (reachable.run lock) noWriterOnward owner le_rfl
    simp only [Config.advance_thread, Function.update_self, Config.advance_advance,
      destination] at rest
    exact ⟨_, shared, lock.append rest⟩

/-- A reader in its Enter gets in by its own steps and those of the reader that
owns the mutex. -/
theorem reader_enters
    (reachable : Reachable (program solution1 B) (initial solution1 data) config)
    (noWriter : ∀ thread, ¬ writerInside (config.thread thread)) {waiting : ι}
    {call : B.ReaderCall} {point : EnterReader}
    (waits : config.thread waiting = .enterReader call point) :
    ∃ moves next, Run (program solution1 B) (fun _ move => inReader move.source ∧
        (move.thread = waiting ∨ (view (config.thread move.thread)).Owns)) config moves next ∧
      next.thread waiting = .criticalReader call (B.readerStart call) := by
  by_cases alone : ∀ thread, (view (config.thread thread)).Owns → thread = waiting
  · obtain ⟨moves, shared, run⟩ := reader_enters_alone reachable noWriter alone waits
    refine ⟨moves, _, run.mono ?_, by simp⟩
    intro _ move permitted
    exact ⟨permitted.1, .inl permitted.2⟩
  · simp only [not_forall] at alone
    obtain ⟨holder, owner, different⟩ := alone
    obtain ⟨_, unique, _⟩ := (lightswitch_invariant reachable).owner owner
    obtain ⟨earlier, middle, release⟩ := owner_releases reachable noWriter owner le_rfl
    have arrived := destination_of_owner owner
    have othersOnward : ∀ thread, (view ((config.advance holder middle
        (destination (config.thread holder))).thread thread)).Owns → thread = waiting := by
      intro thread threadOwner
      by_cases moved : thread = holder
      · subst moved
        rw [Config.advance_thread, Function.update_self] at threadOwner
        exact absurd threadOwner arrived.2
      · rw [Config.advance_thread, Function.update_of_ne moved] at threadOwner
        exact absurd (unique thread threadOwner) moved
    have waitsOnward : (config.advance holder middle
        (destination (config.thread holder))).thread waiting = .enterReader call point := by
      rw [Config.advance_thread, Function.update_of_ne (Ne.symm different), waits]
    obtain ⟨later, shared, entry⟩ := reader_enters_alone (reachable.run release)
      (noWriter_advance noWriter arrived.1) othersOnward waitsOnward
    refine ⟨earlier ++ later, _, (release.mono ?_).append (entry.mono ?_), by simp⟩
    · intro _ move permitted
      refine ⟨permitted.1, .inr ?_⟩
      rw [permitted.2]
      exact owner
    · intro _ move permitted
      exact ⟨permitted.1, .inl permitted.2⟩

/-- While a reader is inside, no reader waits for `SemaphoreWriter`, and every
reader in its Enter can get in by steps of readers alone. Unless the first
reader has locked the mutex in order to leave, it takes none of them. -/
theorem solution1_reader_preference
    (reachable : Reachable (program solution1 B) (initial solution1 data) config)
    {reader : ι} (inside : readerInside (config.thread reader)) :
    (∀ other call, config.thread other ≠ .enterReader call .downWriter) ∧
      ∀ waiting call point, config.thread waiting = .enterReader call point →
        ∃ moves next, Run (program solution1 B) (fun _ move => inReader move.source ∧
            (readerStaying (config.thread reader) → move.thread ≠ reader)) config moves next ∧
          next.thread waiting = .criticalReader call (B.readerStart call) := by
  have noWriter : ∀ thread, ¬ writerInside (config.thread thread) := by
    intro thread writing
    exact writerInside_excludes_readerInside reachable writing inside
  constructor
  · intro other call waits
    have waitsForRoom : view (config.thread other) = .enterRoom := by rw [waits]; rfl
    have free := room_of_no_writer reachable noWriter waitsForRoom
    have taken : config.shared.sync.semaphoreWriter = 0 :=
      (lightswitch_invariant reachable).room_taken (settled_of_readerInside inside)
    omega
  · intro waiting call point waits
    obtain ⟨moves, next, run, entered⟩ := reader_enters reachable noWriter waits
    refine ⟨moves, next, run.mono ?_, entered⟩
    intro _ move permitted
    refine ⟨permitted.1, ?_⟩
    intro staying same
    rw [← same] at staying
    rcases permitted.2 with itself | owner
    · rw [itself, waits] at staying
      cases staying
    · exact not_owns_of_readerStaying staying owner

/-- Thread 1 reads `/proc/kboard/reader`; thread 0 waits to write and thread 2
is about to read as well. -/
def readingSchedule : List (Thread × Action Procfs.kboardOperations) :=
  (.t1, .callReader 0) :: steps .t1 6 ++
    [(.t0, .callWriter .read), (.t2, .callReader 3)]

def readingConfig : Config Thread (Shared solution1 Procfs.kboardOperations)
    (Phase solution1 Procfs.kboardOperations) :=
  (execute step (fun _ _ => True) (initial solution1 Procfs.Board.zero) readingSchedule).get rfl

theorem solution1_reader_preference_reading :
    ¬ ready readingConfig.shared (readingConfig.thread .t0) ∧
      ∃ moves next, Run (program solution1 Procfs.kboardOperations)
          (fun _ move => inReader move.source ∧ move.thread ≠ .t1) readingConfig moves next ∧
        next.thread .t2 = .criticalReader 3 (Procfs.readerStart 3) := by
  have reachable : Reachable (program solution1 Procfs.kboardOperations)
      (initial solution1 Procfs.Board.zero) readingConfig := reachable_get _
  have inside : readerInside (readingConfig.thread .t1) := rfl
  obtain ⟨moves, next, run, entered⟩ :=
    (solution1_reader_preference reachable inside).2 .t2 3 .downMutex rfl
  refine ⟨Bool.false_ne_true, moves, next, run.mono ?_, entered⟩
  intro _ move permitted
  exact ⟨permitted.1, permitted.2 rfl⟩

private theorem owns_of_staying_inside {s s' : Shared solution1 B}
    {source target : Phase solution1 B}
    (stepped : program solution1 B s source s' target) (owner : (view source).Owns)
    (inside : readerInside source) (stays : readerInside target) : (view target).Owns := by
  cases transition_of_program stepped with
  | callWriter | callReader | enterWriter | criticalWriter | leaveWriter | criticalReader =>
      exact absurd owner id
  | enterReader => cases inside
  | @leaveReader _ call result point sync control taken =>
      cases point with
      | downMutex => exact absurd owner id
      | loadReaderCount => cases taken; trivial
      | storeReaderCount => cases taken; cases stays
      | testReaderCount | upWriter | upMutex => cases inside

/-- A first reader that has locked the mutex in its Leave is still inside, and
nobody else passes the mutex until it has gone on to leave. -/
theorem leaving_reader_keeps_out
    (reachable : Reachable (program solution1 B) (initial solution1 data) config)
    {leaving waiting : ι} {call : B.ReaderCall} (owner : (view (config.thread leaving)).Owns)
    (inside : readerInside (config.thread leaving))
    (waits : config.thread waiting = .enterReader call .downMutex)
    {moves : List (Move ι (Phase solution1 B))}
    {next : Config ι (Shared solution1 B) (Phase solution1 B)}
    (run : Run (program solution1 B) (fun _ move => move.thread = leaving →
      readerInside move.target) config moves next) :
    next.thread waiting = .enterReader call .downMutex := by
  suffices (view (next.thread leaving)).Owns ∧ readerInside (next.thread leaving) ∧
      next.thread waiting = .enterReader call .downMutex from this.2.2
  induction run with
  | refl => exact ⟨owner, inside, waits⟩
  | @snoc moves middle next move run stays taken ih =>
      obtain ⟨owner, inside, waits⟩ := ih
      have locked := ((lightswitch_invariant (reachable.run run)).owner owner).1
      obtain @⟨mover, shared, target, stepped⟩ := taken
      have apart : leaving ≠ waiting := by
        rintro rfl
        rw [waits] at inside
        cases inside
      have mutexNotPassed : mover ≠ waiting := by
        rintro rfl
        rw [waits] at stepped
        cases transition_of_program stepped with
        | enterReader taken =>
            obtain ⟨rest, positive, _⟩ := down_map_eq_some_iff.mp taken
            simp only [Config.map, share] at locked
            omega
      by_cases own : mover = leaving
      · subst own
        have stillInside := stays rfl
        simp only [Config.advance_thread, Function.update_self,
          Function.update_of_ne apart.symm]
        exact ⟨owns_of_staying_inside stepped owner inside stillInside, stillInside, waits⟩
      · simp only [Config.advance_thread, Function.update_of_ne (Ne.symm own),
          Function.update_of_ne mutexNotPassed.symm]
        exact ⟨owner, inside, waits⟩

/-- Thread 1 has read and locks the mutex to leave; thread 2 is about to read
and does not get in while thread 1 is inside. -/
def leavingSchedule : List (Thread × Action Procfs.kboardOperations) :=
  (.t1, .callReader 0) :: steps .t1 10 ++ [(.t2, .callReader 3)]

def leavingConfig : Config Thread (Shared solution1 Procfs.kboardOperations)
    (Phase solution1 Procfs.kboardOperations) :=
  (execute step (fun _ _ => True) (initial solution1 Procfs.Board.zero) leavingSchedule).get rfl

theorem solution1_reader_preference_leaving :
    Reachable (program solution1 Procfs.kboardOperations)
        (initial solution1 Procfs.Board.zero) leavingConfig ∧
      readerInside (leavingConfig.thread .t1) ∧
      leavingConfig.thread .t2 = .enterReader 3 .downMutex ∧
      ¬ ∃ moves next, Run (program solution1 Procfs.kboardOperations)
          (fun _ move => move.thread = .t1 → readerInside move.target) leavingConfig moves next ∧
        readerInside (next.thread .t2) := by
  have reachable : Reachable (program solution1 Procfs.kboardOperations)
      (initial solution1 Procfs.Board.zero) leavingConfig := reachable_get _
  have owner : (view (leavingConfig.thread .t1)).Owns := trivial
  have inside : readerInside (leavingConfig.thread .t1) := rfl
  have waits : leavingConfig.thread .t2 = .enterReader 3 .downMutex := rfl
  refine ⟨reachable, inside, waits, ?_⟩
  rintro ⟨moves, next, run, entered⟩
  rw [leaving_reader_keeps_out reachable owner inside waits run] at entered
  cases entered

end Kboard.Sync.Solution1
