import Kboard.Procfs.Files

/-!
# SyncTest

The test program: threads that write 777 over and over, threads that paste, and
threads that read a random slot. However they interleave, nothing but 777 comes
out, and a slot without it shows that it is empty.
-/

set_option autoImplicit false

namespace Kboard.Procfs.SyncTest

open Concurrency Queue Sync Text Files

/-- The thread functions, by the command that each repeats. -/
inductive Role where
  | writerEnqueue
  | writerDequeue
  | reader

/-- What `echo 777` prints. -/
def sevens : List UInt8 := [55, 55, 55, 10]

/-- The call that the command makes. -/
def Role.makes : Role → FileCall → Bool
  | .writerEnqueue, .writeWriter _ data _ => data == sevens
  | .writerDequeue, .readWriter => true
  | .reader, .readReader _ => true
  | _, _ => false

/-- What the call gives: the item has been taken in or there was no room, 777 is
pasted or there was nothing, 777 is shown or the slot is empty. -/
def Expected : FileCall × Reply → Prop
  | (.writeWriter _ _ copies, reply) =>
      reply = ⟨4, []⟩ ∨ reply = ⟨-eperm, []⟩ ∨ copies = false ∧ reply = ⟨-efault, []⟩
  | (.readWriter, reply) => reply = ⟨0, pasteText 777⟩ ∨ reply = ⟨-eperm, []⟩
  | (.readReader _, reply) => ∃ index : Fin 5,
      reply = ⟨0, readerText index.val 777⟩ ∨ reply = ⟨0, readerText index.val (-1)⟩

variable {S : SyncSolution}

def made : Files.Caller S → Files.Caller S → Option FileCall
  | .idle, .busy call _ | .idle, .done call _ => some call
  | _, _ => none

/-- Every thread makes the calls of its role only. -/
abbrev Playing {ι : Type} (roles : ι → Role)
    (_ : Config ι (Shared S kboardOperations) (Files.Caller S))
    (move : Move ι (Files.Caller S)) : Prop :=
  (made move.source move.target).all (roles move.thread).makes

def calling : Files.Caller S → Option FileCall
  | .busy call _ | .done call _ => some call
  | .idle => none

theorem calling_of_step {s s' : Shared S kboardOperations} {source target : Files.Caller S}
    {call : FileCall} (taken : program S s source s' target) (calls : calling target = some call) :
    made source target = some call ∨ calling source = some call := by
  cases transition_of_caller taken with
  | refuse | call => exact .inl calls
  | work | finish => exact .inr calls
  | collect => cases calls

private theorem calling_of_event {s s' : Shared S kboardOperations} {source target : Files.Caller S}
    {entry : FileCall × Reply} (taken : program S s source s' target)
    (ends : event source target = some entry) : calling target = some entry.1 := by
  cases transition_of_caller taken with
  | refuse => cases ends; rfl
  | call | finish | collect => cases ends
  | work =>
      obtain ⟨answer, _, same⟩ := Option.map_eq_some_iff.mp ends
      cases same
      rfl

section

variable {ι : Type} [DecidableEq ι] {k : Board} {roles : ι → Role}
  {moves : List (Move ι (Files.Caller S))}
  {config : Config ι (Shared S kboardOperations) (Files.Caller S)}

theorem makes_of_run (run : Run (program S) (Playing roles) (initial S k) moves config) :
    (∀ i call, calling (config.thread i) = some call → (roles i).makes call) ∧
      ∀ entry ∈ events moves, ∃ i, (roles i).makes entry.1 := by
  induction run with
  | refl => exact ⟨fun _ _ => nofun, fun _ member => absurd member List.not_mem_nil⟩
  | @snoc moves config next move run playing taken ih =>
      obtain ⟨makes, placed⟩ := ih
      obtain @⟨thread, shared, target, stepped⟩ := taken
      have here {call : FileCall} (calls : calling target = some call) :
          (roles thread).makes call := by
        rcases calling_of_step stepped calls with begins | before
        · simp only [Playing, begins, Option.all_some] at playing
          exact playing
        · exact makes thread call before
      constructor
      · intro i call calls
        by_cases moved : i = thread
        · rw [moved, Config.advance_thread, Function.update_self] at calls
          rw [moved]
          exact here calls
        · rw [Config.advance_thread, Function.update_of_ne moved] at calls
          exact makes i call calls
      · intro entry member
        rw [events, List.filterMap_append] at member
        rcases List.mem_append.mp member with earlier | last
        · exact placed entry earlier
        · obtain ⟨move, single, ends⟩ := List.mem_filterMap.mp last
          rw [List.mem_singleton.mp single] at ends
          exact ⟨thread, here (calling_of_event stepped ends)⟩

end

/-! ## One call -/

private theorem sevens_eq : sevens = intLine 777 := by
  simp [sevens, intLine, formatInt, numeral, digitByte]

private theorem checkInput_sevens (stack : Stack) (copies : Bool) :
    checkInput stack sevens copies =
      if copies then .ok (.write 777 4) else .error ⟨-efault, []⟩ := by
  have isInt : IsInt 777 := ⟨by omega, by omega⟩
  rw [sevens_eq, checkInput_intLine isInt, ← sevens_eq]
  cases copies <;> rfl

def OnlySevens (c : Clipboard) : Prop := ∀ item ∈ c.items, item = 777

theorem serveFile_expected {c next : Clipboard} {role : Role} {call : FileCall} {reply : Reply}
    (only : OnlySevens c) (makes : role.makes call)
    (served : serveFile c call = (reply, next)) : OnlySevens next ∧ Expected (call, reply) := by
  cases call with
  | writeWriter stack data copies =>
      have same : data = SyncTest.sevens := by
        cases role with
        | writerEnqueue => exact eq_of_beq makes
        | writerDequeue | reader => cases makes
      rw [serveFile, FileCall.operation, same, checkInput_sevens] at served
      cases copies with
      | false =>
          cases served
          exact ⟨only, .inr (.inr ⟨rfl, rfl⟩)⟩
      | true =>
          simp only [if_true, Except.map, Clipboard.serve] at served
          split at served
          · cases served
            refine ⟨?_, .inl rfl⟩
            intro item member
            rcases List.mem_append.mp member with before | last
            · exact only item before
            · exact List.mem_singleton.mp last
          · cases served
            exact ⟨only, .inr (.inl rfl)⟩
  | readWriter =>
      obtain ⟨items, oldest, bounded⟩ := c
      cases items with
      | nil =>
          cases served
          exact ⟨only, .inr rfl⟩
      | cons item rest =>
          cases served
          have first : item = 777 := only item List.mem_cons_self
          refine ⟨fun other member => only other (List.mem_cons_of_mem _ member), .inl ?_⟩
          rw [first]
          rfl
  | readReader randomBytes =>
      cases served
      refine ⟨only, Fin.ofNat 5 randomBytes.toNat, ?_⟩
      cases found : c.at? (Fin.ofNat 5 randomBytes.toNat) with
      | none =>
          right
          simp only [Clipboard.serve, found, Files.reply]
          rfl
      | some item =>
          have shown : item = 777 := only item (List.mem_of_getElem? found)
          left
          simp only [Clipboard.serve, found, shown, Files.reply]
          rfl

/-! ## The test -/

section

variable {ι : Type} [Fintype ι] [DecidableEq ι] {k : Board} {roles : ι → Role}

/-- The test passes under a solution that keeps writers alone: each command gets
what is expected, and as many 777 are pasted as have been taken in, but for the
at most five that are still there. -/
theorem sync_test_passes (S : ReadersWriters)
    {moves : List (Move ι (Files.Caller S.toSyncSolution))}
    {config : Config ι (Shared S.toSyncSolution kboardOperations) (Files.Caller S.toSyncSolution)}
    (run : Run (program S.toSyncSolution) (Playing roles) (initial S.toSyncSolution k)
      moves config) :
    (∀ entry ∈ replies moves, Expected entry) ∧
      ∃ left ≤ 5, ((events moves).filterMap acceptedText).length =
        ((events moves).filterMap pastedText).length + left := by
  have operating : Run (program S.toSyncSolution) (Permits id view fun _ _ => True)
      (initial S.toSyncSolution k) moves config := run.mono fun _ _ _ => trivial
  obtain ⟨c, linearized⟩ := files_of_exclusive operating fun run => S.exclusive run.reachable
  have none : OnlySevens .empty := fun _ member => absurd member List.not_mem_nil
  obtain ⟨_, expected⟩ := linearized.legal.forall_mem_of_invariant none
    fun member sevens served => by
      obtain ⟨i, makes⟩ := (makes_of_run run).2 _ member
      exact serveFile_expected sevens makes served
  constructor
  · intro entry replied
    exact expected entry (mem_events_of_mem_replies run replied)
  · refine ⟨c.items.length, c.bounded, ?_⟩
    rw [linearized.conserved, List.length_append, texts, List.length_map]

def roleOf : Thread → Role
  | .t0 | .t3 => .writerEnqueue
  | .t1 => .writerDequeue
  | .t2 => .reader

/-- A command is started before another one is done. -/
def testSchedule : List (Thread × Files.CallerAction) :=
  (.t0, .call (.writeWriter nines sevens true)) :: advances .t0 3 ++
    (.t1, .call .readWriter) :: (.t2, .call (.readReader 0)) :: advances .t0 7 ++
    advances .t1 13 ++ advances .t2 4

theorem sync_test_passes_interleaved :
    ∃ (moves : _) (config : Config Thread _ (Files.Caller Solution1.solution1)),
      Run (program Solution1.solution1) (Playing roleOf)
        (initial Solution1.solution1 Board.zero) moves config ∧
      statusOf (config.thread .t1) == some 0 ∧ ∀ entry ∈ replies moves, Expected entry := by
  have passed : (execute Files.step (Playing roleOf) (initial Solution1.solution1 Board.zero)
      testSchedule).any (fun config => statusOf (config.thread .t1) == some 0) = true := rfl
  obtain ⟨moves, config, run, checked⟩ := execute_any passed
  exact ⟨moves, config, run, checked, (sync_test_passes ReadersWriters.solution1 run).1⟩

end

end Kboard.Procfs.SyncTest
