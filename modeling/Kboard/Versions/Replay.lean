import Kboard.Concurrency.Serialization
import Kboard.Procfs.Files
import Kboard.Syscall.Linearization

/-!
# The system calls and the module

The two versions of the kboard are one clipboard. What any interleaving of
`kb_enqueue` and `kb_dequeue` gives its callers, the files under /proc/kboard
give for the same calls made one after the other: an item is written as `echo`
would print it, and a dequeue is a read of `writer`.
-/

set_option autoImplicit false

namespace Kboard.Versions

open Concurrency Queue Procfs Procfs.Files

/-- The reply to a write that corresponds to the status of an enqueue. -/
def writeReply (item status : Int) : Reply :=
  if status = 0 then ⟨(intLine item).length, []⟩
  else if status = -1 then ⟨-eperm, []⟩
  else ⟨-einval, []⟩

def readReply : Option Int → Reply
  | some item => ⟨0, pasteText item⟩
  | none => ⟨-eperm, []⟩

/-- A system call and its result as a call of the file. A dequeue whose
`copy_to_user` fails has no counterpart: it leaves everything as it is. -/
def replayed (stack : Stack) : Syscall.Call × Syscall.Result → Option (FileCall × Reply)
  | (.enqueue item, result) =>
      some (.writeWriter stack (intLine item) true, writeReply item result.status)
  | (.dequeue true, result) => some (.readWriter, readReply result.item)
  | (.dequeue false, _) | (.init, _) => none

/-- Enqueues are of `int`s, and there is no re-initialisation. -/
def Plain : Syscall.Call → Prop
  | .enqueue item => IsInt item
  | .dequeue _ => True
  | .init => False

/-- The file call by itself gives this reply. -/
def Gives (k : Board) (entry : FileCall × Reply) (after : Board) : Prop :=
  callFile k entry.1 = some (after, entry.2)

def queueOf (c : Clipboard) : List Int := c.items.map Int.ofNat

/-! ## One call -/

theorem replay_enqueue {c : Clipboard} {item : Int} (isInt : IsInt item) (stack : Stack) :
    (serveFile c (.writeWriter stack (intLine item) true)).1 =
        writeReply item (Syscall.serve (queueOf c) (.enqueue item)).1.status ∧
      queueOf (serveFile c (.writeWriter stack (intLine item) true)).2 =
        (Syscall.serve (queueOf c) (.enqueue item)).2 := by
  have length : (queueOf c).length = c.items.length := List.length_map _
  simp only [serveFile, FileCall.operation, checkInput_intLine isInt, Syscall.serve, length,
    Bool.true_eq_false, if_false]
  by_cases negative : item < 0
  · simp only [if_pos negative, Except.map]
    exact ⟨rfl, trivial⟩
  · simp only [if_neg negative, Except.map, Clipboard.serve]
    have nonneg : (item.toNat : Int) = item := Int.toNat_of_nonneg (not_lt.mp negative)
    by_cases room : c.items.length < 5
    · simp [room, Files.reply, writeReply, queueOf, nonneg]
    · simp only [dif_neg room, if_neg room]
      exact ⟨rfl, trivial⟩

theorem replay_dequeue (c : Clipboard) :
    (serveFile c .readWriter).1 =
        readReply (Syscall.serve (queueOf c) (.dequeue true)).1.item ∧
      queueOf (serveFile c .readWriter).2 = (Syscall.serve (queueOf c) (.dequeue true)).2 := by
  obtain ⟨items, oldest, bounded⟩ := c
  cases items with
  | nil => exact ⟨rfl, rfl⟩
  | cons item rest => exact ⟨rfl, rfl⟩

private theorem dequeue_fails (queue : List Int) :
    (Syscall.serve queue (.dequeue false)).2 = queue := by
  cases queue <;> rfl

/-! ## Histories and runs -/

variable {k : Board} {queue : List Int} {history : List (Syscall.Call × Syscall.Result)}

/-- The board has come to show this queue by the replayed calls. -/
def Replayed (stack : Stack) (k : Board) (history : List (Syscall.Call × Syscall.Result))
    (queue : List Int) : Prop :=
  ∃ board c completed,
    Serial Gives (initializeKboard k) (history.filterMap (replayed stack)) board ∧
      Shows board c completed ∧ queueOf c = queue

private theorem replayed_of_legal (legal : Legal Syscall.serve [] history queue)
    (plain : ∀ entry ∈ history, Plain entry.1) (stack : Stack) (k : Board) :
    Replayed stack k history queue := by
  induction legal with
  | nil => exact ⟨_, _, _, .nil, initializeKboard_shows k, rfl⟩
  | @snoc history queue next call result _ served ih =>
      obtain ⟨board, c, completed, serial, shown, rfl⟩ :=
        ih fun entry member => plain entry (List.mem_append_left _ member)
      have here : Plain call :=
        plain (call, result) (List.mem_append_right _ (List.mem_singleton_self _))
      obtain rfl : (Syscall.serve (queueOf c) call).1 = result := congrArg Prod.fst served
      obtain rfl : (Syscall.serve (queueOf c) call).2 = next := congrArg Prod.snd served
      have goesOn {fileCall : FileCall} {reply : Reply}
          (replays : replayed stack (call, (Syscall.serve (queueOf c) call).1) =
            some (fileCall, reply))
          (same : (serveFile c fileCall).1 = reply ∧
            queueOf (serveFile c fileCall).2 = (Syscall.serve (queueOf c) call).2) :
          Replayed stack k (history ++ [(call, (Syscall.serve (queueOf c) call).1)])
            (Syscall.serve (queueOf c) call).2 := by
        obtain ⟨after, further, called, shownAfter⟩ := callFile_of_shows shown fileCall
        rw [same.1] at called
        refine ⟨after, _, further, ?_, shownAfter, same.2⟩
        rw [List.filterMap_append, List.filterMap_cons_some replays]
        exact serial.snoc called
      cases call with
      | enqueue item => exact goesOn rfl (replay_enqueue here stack)
      | init => exact absurd here id
      | dequeue copies =>
          cases copies with
          | true => exact goesOn rfl (replay_dequeue c)
          | false =>
              refine ⟨board, c, completed, ?_, shown, (dequeue_fails _).symm⟩
              rw [List.filterMap_append, List.filterMap_cons_none rfl, List.filterMap_nil,
                List.append_nil]
              exact serial

section

variable {ι : Type} [DecidableEq ι] {origin : Syscall.Variables}
  {moves : List (Move ι Syscall.Phase)} {config : Config ι Syscall.Variables Syscall.Phase}

/-- Every run of the system calls, in the order in which they release the lock,
can be replayed on the files under /proc/kboard. Whenever the lock is free, both
versions then hold the same items. -/
theorem syscalls_replay_on_files
    (fresh : origin = Syscall.boot ∨ ∃ s, origin = Syscall.completedInit s)
    (run : Run Syscall.program Syscall.NoInit (Syscall.initial origin) moves config)
    (plain : ∀ entry ∈ Syscall.history moves, Plain entry.1) (stack : Stack) (k : Board) :
    ∃ board c completed,
      Serial Gives (initializeKboard k) ((Syscall.history moves).filterMap (replayed stack)) board ∧
      Shows board c completed ∧
      (config.shared.locked = false → Syscall.Represents config.shared (queueOf c)) := by
  obtain ⟨queue, legal, valid⟩ := Syscall.linearized_of_noInit fresh run
  obtain ⟨board, c, completed, serial, shown, rfl⟩ := replayed_of_legal legal plain stack k
  refine ⟨board, c, completed, serial, shown, ?_⟩
  intro free
  rcases valid with ⟨_, _, represents⟩ | ⟨taken, _⟩
  · exact represents
  · simp [Syscall.units, free] at taken

theorem syscalls_replay_on_files_retry :
    ∃ (moves : _) (config : Config Thread _ _),
      Run Syscall.program Syscall.NoInit (Syscall.initial Syscall.boot) moves config ∧
      (Syscall.history moves).length = 4 ∧
      ∃ board, Serial Gives (initializeKboard Board.zero)
        ((Syscall.history moves).filterMap (replayed nines)) board := by
  have done : (execute Syscall.step Syscall.NoInit (Syscall.initial Syscall.boot)
      Syscall.retrySchedule).isSome := rfl
  have run := run_of_done done rfl
  have history : Syscall.history (trace Syscall.step (Syscall.initial Syscall.boot)
      Syscall.retrySchedule) = [(.enqueue 7, { status := 0 }), (.enqueue (-3), { status := -2 }),
        (.dequeue false, { status := -2 }), (.dequeue true, { status := 0, item := some 7 })] := rfl
  have seven : IsInt 7 := ⟨by omega, by omega⟩
  have negative : IsInt (-3) := ⟨by omega, by omega⟩
  have plain : ∀ entry ∈ Syscall.history (trace Syscall.step (Syscall.initial Syscall.boot)
      Syscall.retrySchedule), Plain entry.1 := by
    rw [history]
    simp [Plain, seven, negative]
  obtain ⟨board, _, _, serial, _⟩ :=
    syscalls_replay_on_files (.inl rfl) run plain nines Board.zero
  exact ⟨_, _, run, by rw [history]; rfl, board, serial⟩

end

end Kboard.Versions
