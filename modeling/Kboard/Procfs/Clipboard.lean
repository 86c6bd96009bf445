import Kboard.Procfs.RandomRead
import Kboard.Procfs.Serialization

/-!
# The clipboard

What the module is for, without threads, semaphores or a ring: at most five
items, of which the oldest can be taken out, and which are found by the place
they were put in. The board shows a clipboard, and every call by itself does to
the one what it does to the other. So the threads share a clipboard, whatever
solution keeps the writers alone.
-/

set_option autoImplicit false

namespace Kboard.Procfs

open Concurrency Queue Sync

/-- The items, oldest first, and the place of the oldest among five. -/
structure Clipboard where
  items : List Nat
  oldest : Fin 5
  bounded : items.length ≤ 5

namespace Clipboard

def empty : Clipboard := ⟨[], 0, by decide⟩

/-- The item in this place, if there is one. -/
def at? (c : Clipboard) (place : Fin 5) : Option Nat := c.items[(place - c.oldest).val]?

def serve (c : Clipboard) : Call → Answer × Clipboard
  | .writer (.write item length) =>
      if room : c.items.length < 5 then
        (.writer ⟨length, none⟩, { c with
          items := c.items ++ [item]
          bounded := by rw [List.length_append]; exact room })
      else (.writer ⟨-eperm, none⟩, c)
  | .writer .read =>
      match c.items.head? with
      | none => (.writer ⟨-eperm, none⟩, c)
      | some item => (.writer ⟨0, some item⟩, {
          items := c.items.tail
          oldest := c.oldest + 1
          bounded := by
            have bounded := c.bounded
            rw [List.length_tail]
            omega })
  | .reader randomBytes =>
      let place := Fin.ofNat 5 randomBytes.toNat
      (.reader ⟨place.val, ((c.at? place).map Int.ofNat).getD ringBufferInitValue⟩, c)

def accepts : Call × Answer → Option Nat
  | (.writer (.write item _), .writer result) => if 0 ≤ result.status then some item else none
  | _ => none

def delivers : Call × Answer → Option Nat
  | (.writer .read, .writer result) => result.item.map Int.toNat
  | _ => none

theorem serve_accounts {c next : Clipboard} {call : Call} {answer : Answer}
    (served : c.serve call = (answer, next)) :
    c.items ++ (accepts (call, answer)).toList =
      (delivers (call, answer)).toList ++ next.items := by
  cases call with
  | reader randomBytes => cases served; simp [accepts, delivers]
  | writer call =>
      cases call with
      | write item length =>
          simp only [serve] at served
          split at served
          · cases served
            simp [accepts, delivers]
          · cases served
            simp [accepts, delivers, eperm]
      | read =>
          obtain ⟨items, oldest, bounded⟩ := c
          cases items with
          | nil => cases served; rfl
          | cons item rest => cases served; simp [accepts, delivers]

end Clipboard

/-! ## The board -/

/-- The board shows this clipboard, and has counted so many writer operations. -/
structure Shows (k : Board) (c : Clipboard) (completed : Nat) : Prop where
  represents : Represents k (c.items.map Int.ofNat) completed
  oldest : k.ringBufferCurrentIndex = c.oldest.val

theorem initializeKboard_shows (k : Board) : Shows (initializeKboard k) .empty 0 :=
  ⟨initializeKboard_represents k, rfl⟩

theorem Shows.of_writerPart {k k' : Board} {c : Clipboard} {completed : Nat}
    (shown : Shows k c completed) (same : k'.writerPart = k.writerPart) :
    Shows k' c completed := by
  have shownPart : Shows k'.writerPart c completed := same ▸ ⟨shown.represents, shown.oldest⟩
  exact ⟨shownPart.represents, shownPart.oldest⟩

def isWriter : Call → Bool
  | .writer _ => true
  | .reader _ => false

section

variable {k : Board} {c : Clipboard} {completed : Nat}

theorem Shows.count (shown : Shows k c completed) : k.ringBufferCount = c.items.length := by
  rw [shown.represents.2.1, List.length_map]

theorem Shows.refused (shown : Shows k c completed) : Shows k.refused c (completed + 1) := by
  obtain ⟨⟨window, count, performed⟩, oldest⟩ := shown
  exact ⟨⟨window, count, performWriter_succ performed⟩, oldest⟩

theorem Shows.write (shown : Shows k c completed) (item length : Nat) :
    ∃ after, callAlone k (.writer (.write item length)) =
        some (after, (c.serve (.writer (.write item length))).1) ∧
      Shows after (c.serve (.writer (.write item length))).2 (completed + 1) := by
  have count := shown.count
  by_cases room : c.items.length < 5
  · have below : k.ringBufferCount < ringBufferSize := by
      rw [count, ringBufferSize]
      omega
    have appends := (appends_appended below item).queue _ _ shown.represents
    refine ⟨k.appended item, ?_, ?_, ?_⟩
    · rw [callAlone, callWriter_write below, Clipboard.serve, dif_pos room]
      rfl
    · rw [Clipboard.serve, dif_pos room, List.map_append]
      exact appends
    · rw [Clipboard.serve, dif_pos room]
      exact shown.oldest
  · have full : k.ringBufferCount ≥ ringBufferSize := by
      rw [count, ringBufferSize]
      omega
    refine ⟨k.refused, ?_, ?_⟩
    · rw [callAlone, callWriter_write_full full, Clipboard.serve, dif_neg room]
      rfl
    · rw [Clipboard.serve, dif_neg room]
      exact shown.refused

theorem Shows.read (shown : Shows k c completed) :
    ∃ after, callAlone k (.writer .read) = some (after, (c.serve (.writer .read)).1) ∧
      Shows after (c.serve (.writer .read)).2 (completed + 1) := by
  have count := shown.count
  obtain ⟨items, oldest, bounded⟩ := c
  cases items with
  | nil =>
      have empty : k.ringBufferCount ≤ 0 := count.le
      refine ⟨k.refused, ?_, shown.refused⟩
      rw [callAlone, callWriter_read_empty empty]
      rfl
  | cons item rest =>
      have nonempty : 0 < k.ringBufferCount := by
        rw [count, List.length_cons]
        omega
      obtain ⟨head, remaining⟩ := shown.represents.popped
      refine ⟨k.popped, ?_, remaining, ?_⟩
      · rw [callAlone, callWriter_read nonempty, head]
        rfl
      · have here := shown.oldest
        simp only [Clipboard.serve, List.head?_cons, Board.popped, Fin.val_add] at here ⊢
        rw [here, Int.tmod_eq_emod_of_nonneg (by omega), ringBufferSize]
        norm_cast

theorem Shows.at_place (shown : Shows k c completed) (place : Fin 5) :
    k.ringBuffer place.val = ((c.at? place).map Int.ofNat).getD ringBufferInitValue := by
  have items : ∀ item ∈ c.items.map Int.ofNat, 0 ≤ item := by simp
  have slot := shown.represents.slotShows items (Int.natCast_nonneg place.val)
    (Int.ofNat_lt.mpr place.isLt)
  have distance : (((place - c.oldest).val : Nat) : Int) =
      (place.val - k.ringBufferCurrentIndex) % ringBufferSize := by
    rw [shown.oldest, Fin.val_sub, ringBufferSize]
    omega
  rw [Clipboard.at?]
  cases found : c.items[(place - c.oldest).val]? with
  | none =>
      have outside := List.getElem?_eq_none_iff.mp found
      refine slot.blank_iff.mpr ?_
      rw [← distance, shown.count]
      omega
  | some item =>
      obtain ⟨inside, _⟩ := List.getElem?_eq_some_iff.mp found
      have value := (slot.item (by rw [← distance, shown.count]; omega)).1
      rw [← distance, Int.toNat_natCast, List.getElem?_map, found] at value
      exact (Option.some.inj value).symm

theorem Shows.peek (shown : Shows k c completed) (randomBytes : BitVec 32) :
    ∃ after, callAlone k (.reader randomBytes) =
        some (after, (c.serve (.reader randomBytes)).1) ∧ Shows after c completed := by
  refine ⟨{ k with performReader := k.performReader + 1 }, ?_, shown.represents, shown.oldest⟩
  rw [callAlone, callReader_eq]
  simp only [Option.map_some, Clipboard.serve, Option.some.injEq, Prod.mk.injEq, true_and]
  rw [← shown.at_place]
  rfl

/-- One call by itself, on the board and on the clipboard. -/
theorem Shows.call (shown : Shows k c completed) (call : Call) :
    ∃ after, callAlone k call = some (after, (c.serve call).1) ∧
      Shows after (c.serve call).2 (if isWriter call then completed + 1 else completed) := by
  cases call with
  | reader randomBytes => exact shown.peek randomBytes
  | writer call =>
      cases call with
      | write item length => exact shown.write item length
      | read => exact shown.read

end

/-! ## The threads -/

def writerCalls (history : List (Call × Answer)) : Nat :=
  history.countP fun entry => isWriter entry.1

theorem legal_of_serial {k final : Board} {events : List (Call × Answer)}
    (serial : Serial Leads (initializeKboard k).writerPart events final) :
    ∃ c, Legal Clipboard.serve .empty events c ∧ Shows final c (writerCalls events) := by
  induction serial with
  | nil => exact ⟨.empty, .nil, (initializeKboard_shows k).of_writerPart rfl⟩
  | @snoc events state next event serial leads ih =>
      obtain ⟨c, legal, shown⟩ := ih
      obtain ⟨call, answer⟩ := event
      obtain ⟨after, called, rfl⟩ := leads
      obtain ⟨after', served, shownAfter⟩ := shown.call call
      rw [called] at served
      cases served
      refine ⟨_, legal.snoc rfl, ?_⟩
      have counted : writerCalls (events ++ [(call, (c.serve call).1)]) =
          if isWriter call then writerCalls events + 1 else writerCalls events := by
        simp only [writerCalls, List.countP_append, List.countP_singleton]
        split <;> rfl
      rw [counted]
      exact shownAfter.of_writerPart rfl

section

variable {S : SyncSolution} {ι : Type} [DecidableEq ι] {k : Board}
  {moves : List (Move ι (Phase S kboardOperations))}
  {config : Config ι (Shared S kboardOperations) (Phase S kboardOperations)}

/-- In the order in which the bodies end, the calls are those of one clipboard;
every thread has its own in the order it made them and with the answers it gets;
the items taken out and those left are the ones put in, in the same order; and
with no writer at work the board shows what is left. -/
structure Shared.Linearized (moves : List (Move ι (Phase S kboardOperations)))
    (config : Config ι (Shared S kboardOperations) (Phase S kboardOperations))
    (c : Clipboard) : Prop where
  legal : Legal Clipboard.serve .empty (order moves) c
  threads : ∀ thread, order (ofThread thread moves) =
    returns (ofThread thread moves) ++ owed (config.thread thread)
  conserved : (order moves).filterMap Clipboard.accepts =
    (order moves).filterMap Clipboard.delivers ++ c.items
  shown : (∀ i, ¬ writing (config.thread i)) →
    Shows config.shared.data c (writerCalls (order moves))

theorem linearized_of_exclusive
    {allowed : Config ι (Shared S kboardOperations) (Phase S kboardOperations) →
      Move ι (Phase S kboardOperations) → Prop}
    (run : Run (program S kboardOperations) allowed (initial S (initializeKboard k)) moves config)
    (exclusive : ∀ {moves config}, Run (program S kboardOperations) allowed
      (initial S (initializeKboard k)) moves config → Exclusive config) :
    ∃ c, Shared.Linearized moves config c := by
  obtain ⟨state, guard, serial, valid⟩ := serialized run exclusive
  obtain ⟨c, legal, shown⟩ := legal_of_serial serial
  refine ⟨c, legal, order_ofThread run, ?_, ?_⟩
  · exact legal.conserves_content Clipboard.items _ _ fun _ => Clipboard.serve_accounts
  · intro nobody
    have same : config.shared.data.writerPart = state := (valid.free (not_working nobody)).2
    exact shown.of_writerPart (by rw [← same]; rfl)

end

section

variable {ι : Type} [Fintype ι] [DecidableEq ι] {k : Board}

/-- Under a solution that keeps writers alone in every run, the threads share
one clipboard. -/
theorem readersWriters_linearizable (S : ReadersWriters)
    {moves : List (Move ι (Phase S.toSyncSolution kboardOperations))}
    {config : Config ι (Shared S.toSyncSolution kboardOperations) _}
    (run : Run (program S.toSyncSolution kboardOperations) (fun _ _ => True)
      (initial S.toSyncSolution (initializeKboard k)) moves config) :
    ∃ c, Shared.Linearized moves config c :=
  linearized_of_exclusive run fun run => S.exclusive run.reachable

/-- Thread 0 has written 7, thread 1 looks at a slot, and thread 2 waits to write
until thread 1 has left. -/
def sharingSchedule : List (Thread × Action kboardOperations) :=
  (.t0, .callWriter (.write 7 2)) :: steps .t0 22 ++ (.t1, .callReader 5) :: steps .t1 9 ++
    (.t2, .callWriter (.write 8 2)) :: steps .t2 6 ++ steps .t1 8 ++ steps .t2 16

theorem readersWriters_linearizable_sharing :
    ∃ (moves : _) (config : Config Thread _ _),
      Run (program Solution2.solution2 kboardOperations) (fun _ _ => True)
        (initial Solution2.solution2 (initializeKboard Board.zero)) moves config ∧
      config.shared.data.ringBufferCount = 2 ∧ ∃ c, Shared.Linearized moves config c := by
  obtain ⟨moves, config, run, checked⟩ := run_of_execute Solution2.solution2
    (initializeKboard Board.zero) (fun _ _ => True) sharingSchedule
    (fun config => config.shared.data.ringBufferCount == 2) rfl
  exact ⟨moves, config, run, beq_iff_eq.mp checked,
    readersWriters_linearizable ReadersWriters.solution2 run⟩

end

end Kboard.Procfs
