import Kboard.Concurrency.Lock
import Kboard.Queue.Ring
import Kboard.Syscall.System

/-! The system calls are a queue. A call takes effect when it releases the lock,
or, if it is an enqueue of a negative item, when it is turned away. This holds
as long as no `spin_lock_init` breaks into the critical section of another
call, in particular in every run without `do_sys_kb_init`. The slots outside
the window of the queue may hold anything. -/

set_option autoImplicit false

namespace Kboard.Syscall

open Concurrency Queue

/-! ## The queue -/

/-- A queue of capacity 5 that answers like the three calls. -/
def serve (queue : List Int) : Call → Result × List Int
  | .enqueue item =>
      if item < 0 then ({ status := -2 }, queue)
      else if queue.length < 5 then ({ status := 0 }, queue ++ [item])
      else ({ status := -1 }, queue)
  | .dequeue copies =>
      match queue with
      | [] => ({ status := -1 }, [])
      | item :: rest =>
          if copies then ({ status := 0, item := some item }, rest)
          else ({ status := -2 }, item :: rest)
  | .init => ({ status := 0 }, [])

def accepts : Call × Result → Option Int
  | (.enqueue item, result) => if result.status = 0 then some item else none
  | (.dequeue _, _) | (.init, _) => none

def delivers (entry : Call × Result) : Option Int := entry.2.item

theorem serve_accounts {queue next : List Int} {call : Call} {result : Result}
    (noInit : call ≠ .init) (served : serve queue call = (result, next)) :
    queue ++ (accepts (call, result)).toList = (delivers (call, result)).toList ++ next := by
  cases call with
  | enqueue item =>
      simp only [serve] at served
      split at served
      · cases served
        simp [accepts, delivers]
      · split at served
        · cases served
          simp [accepts, delivers]
        · cases served
          simp [accepts, delivers]
  | dequeue copies =>
      cases queue with
      | nil => cases served; rfl
      | cons item rest =>
          simp only [serve] at served
          split at served
          · cases served
            simp [accepts, delivers]
          · cases served
            simp [accepts, delivers]
  | init => exact absurd rfl noInit

/-! ## The ring under the lock -/

def units (s : Variables) : Nat := if s.locked then 0 else 1

def Owns : Phase → Prop
  | .running (.enqueue _ .spinLock) | .running (.dequeue _ .spinLock)
  | .running (.init .spinLockInit) | .running (.init .spinLock) => False
  | .running _ => True
  | .idle | .returned _ _ => False

def Represents (s : Variables) (queue : List Int) : Prop :=
  Holds maxClip s.ring s.currentIndex queue ∧ s.count = queue.length

/-- The oldest item is on its way out and the current index not yet moved on. -/
def Popping (s : Variables) (queue rest : List Int) (item : Int) : Prop :=
  queue = item :: rest ∧ 0 ≤ s.currentIndex ∧
    Holds maxClip s.ring ((s.currentIndex + 1) % maxClip) rest

/-- The call has done its work: the ring holds the queue that is to come. -/
def Served (s : Variables) (queue : List Int) (call : Call) (result : Result) : Prop :=
  ∃ next, serve queue call = (result, next) ∧ Represents s next

def EnqueueKnows (s : Variables) (queue : List Int) (item : Int) : EnqueuePoint → Prop
  | .spinLock => True
  | .testCount => Represents s queue
  | .loadCurrentIndex => Represents s queue ∧ queue.length < 5
  | .loadTailCount index => index = s.currentIndex ∧ Represents s queue ∧ queue.length < 5
  | .storeItem slot =>
      slot = tail maxClip s.currentIndex queue ∧ Represents s queue ∧ queue.length < 5
  | .loadCount => Holds maxClip s.ring s.currentIndex (queue ++ [item]) ∧
      s.count = queue.length ∧ queue.length < 5
  | .storeCount loaded => Holds maxClip s.ring s.currentIndex (queue ++ [item]) ∧
      loaded = queue.length ∧ queue.length < 5
  | .spinUnlock status => Served s queue (.enqueue item) { status }

def DequeueKnows (s : Variables) (queue : List Int) (copies : Bool) : DequeuePoint → Prop
  | .spinLock => True
  | .testCount => Represents s queue
  | .loadCopyIndex => Represents s queue ∧ queue ≠ []
  | .copyToUser index => index = s.currentIndex ∧ Represents s queue ∧ queue ≠ []
  | .loadClearIndex item => copies ∧ Represents s queue ∧ ∃ rest, queue = item :: rest
  | .clearSlot item index => index = s.currentIndex ∧
      copies ∧ Represents s queue ∧ ∃ rest, queue = item :: rest
  | .loadCount item => copies ∧ ∃ rest, Popping s queue rest item ∧ s.count = queue.length
  | .storeCount item loaded => copies ∧ ∃ rest, Popping s queue rest item ∧ loaded = queue.length
  | .loadCurrentIndex item => copies ∧ ∃ rest, Popping s queue rest item ∧ s.count = rest.length
  | .storeCurrentIndex item loaded => copies ∧ ∃ rest, Popping s queue rest item ∧
      s.count = rest.length ∧ loaded = s.currentIndex
  | .spinUnlock result => Served s queue (.dequeue copies) result

def InitKnows (s : Variables) : InitPoint → Prop
  | .spinLockInit | .spinLock | .clearSlot _ | .storeCount => True
  | .storeCurrentIndex => s.count = 0
  | .spinUnlock => Represents s []

def Knows (s : Variables) (queue : List Int) : Phase → Prop
  | .running (.enqueue item point) => EnqueueKnows s queue item point
  | .running (.dequeue copies point) => DequeueKnows s queue copies point
  | .running (.init point) => InitKnows s point
  | .idle | .returned _ _ => True

def Keeps (s s' : Variables) (source target : Phase) : Prop :=
  ∀ queue, LockStep Owns (units s) (units s') (Represents s queue) (Represents s' queue)
    (Knows s queue) (Knows s' queue) source target

def Ends (s s' : Variables) (source : Phase) (call : Call) (result : Result) : Prop :=
  Owns source ∧ s' = spinUnlock s ∧ ∀ queue, Knows s queue source → Served s queue call result

variable {s s' : Variables} {source target : Phase}

theorem Keeps.acquire (free : s.locked = false) (after : Owns target)
    (learns : ∀ queue, Represents s queue → Knows s queue target) :
    Keeps s { s with locked := true } source target := by
  intro queue
  refine LockStep.acquire ?_ after (learns queue)
  simp [units, free]

theorem Keeps.work (before : Owns source) (after : Owns target) (sameLock : s'.locked = s.locked)
    (learns : ∀ queue, Knows s queue source → Knows s' queue target) :
    Keeps s s' source target := by
  intro queue
  refine LockStep.work before after ?_ (learns queue)
  simp [units, sameLock]

theorem Keeps.bystander (before : ¬ Owns source) (after : ¬ Owns target) :
    Keeps s s source target :=
  fun _ => .bystander before after rfl id fun _ => id

theorem enqueue_keeps {item : Int} {point next : EnqueuePoint} (nonneg : 0 ≤ item)
    (taken : doSysKbEnqueue item s point = some (s', .goto next)) :
    Keeps s s' (.running (.enqueue item point)) (.running (.enqueue item next)) := by
  cases point with
  | spinLock =>
      obtain ⟨locked, acquired, same⟩ := Option.map_eq_some_iff.mp taken
      obtain ⟨free, rfl⟩ := spinLock_eq_some_iff.mp acquired
      cases same
      exact .acquire free trivial fun _ represents => represents
  | testCount =>
      cases taken
      split
      · next full =>
          refine .work trivial trivial rfl fun queue represents => ⟨queue, ?_, represents⟩
          have count : s.count = queue.length := represents.2
          simp only [maxClip] at full
          rw [serve, if_neg (by omega), if_neg (by omega)]
      · next room =>
          refine .work trivial trivial rfl fun queue represents => ⟨represents, ?_⟩
          have count : s.count = queue.length := represents.2
          simp only [maxClip] at room
          omega
  | loadCurrentIndex =>
      cases taken
      exact .work trivial trivial rfl fun _ known => ⟨rfl, known⟩
  | loadTailCount index =>
      cases taken
      refine .work trivial trivial rfl ?_
      intro queue known
      obtain ⟨rfl, ⟨holds, count⟩, room⟩ := known
      refine ⟨?_, ⟨holds, count⟩, room⟩
      have currentNonneg := holds.currentNonneg
      rw [count, Int.tmod_eq_emod_of_nonneg (by omega)]
      rfl
  | storeItem slot =>
      cases taken
      refine .work trivial trivial rfl ?_
      intro queue known
      obtain ⟨rfl, ⟨holds, count⟩, room⟩ := known
      exact ⟨holds.push (by simp only [maxClip]; omega), count, room⟩
  | loadCount =>
      cases taken
      exact .work trivial trivial rfl fun _ known => known
  | storeCount loaded =>
      cases taken
      refine .work trivial trivial rfl ?_
      intro queue known
      obtain ⟨holds, rfl, room⟩ := known
      refine ⟨queue ++ [item], ?_, holds, ?_⟩
      · rw [serve, if_neg (by omega), if_pos room]
      · simp
  | spinUnlock status => cases taken

theorem enqueue_ends {item : Int} {point : EnqueuePoint} {result : Result}
    (taken : doSysKbEnqueue item s point = some (s', .ret result)) :
    Ends s s' (.running (.enqueue item point)) (.enqueue item) result := by
  cases point with
  | spinUnlock status =>
      cases taken
      exact ⟨trivial, rfl, fun _ served => served⟩
  | spinLock =>
      obtain ⟨locked, acquired, same⟩ := Option.map_eq_some_iff.mp taken
      cases same
  | testCount | loadCurrentIndex | loadTailCount | storeItem | loadCount | storeCount =>
      cases taken

theorem dequeue_keeps {copies : Bool} {point next : DequeuePoint}
    (taken : doSysKbDequeue copies s point = some (s', .goto next)) :
    Keeps s s' (.running (.dequeue copies point)) (.running (.dequeue copies next)) := by
  cases point with
  | spinLock =>
      obtain ⟨locked, acquired, same⟩ := Option.map_eq_some_iff.mp taken
      obtain ⟨free, rfl⟩ := spinLock_eq_some_iff.mp acquired
      cases same
      exact .acquire free trivial fun _ represents => represents
  | testCount =>
      cases taken
      split
      · next empty =>
          refine .work trivial trivial rfl fun queue represents => ⟨queue, ?_, represents⟩
          have count : s.count = queue.length := represents.2
          obtain rfl : queue = [] := List.eq_nil_of_length_eq_zero (by omega)
          rfl
      · next nonempty =>
          refine .work trivial trivial rfl fun queue represents => ⟨represents, ?_⟩
          rintro rfl
          exact nonempty represents.2.le
  | loadCopyIndex =>
      cases taken
      exact .work trivial trivial rfl fun _ known => ⟨rfl, known⟩
  | copyToUser index =>
      cases taken
      split
      · next copied =>
          refine .work trivial trivial rfl ?_
          intro queue known
          obtain ⟨rfl, represents, nonempty⟩ := known
          obtain ⟨item, rest, rfl⟩ := List.exists_cons_of_ne_nil nonempty
          exact ⟨copied, represents, rest, by rw [represents.1.head]⟩
      · next failed =>
          refine .work trivial trivial rfl ?_
          intro queue known
          obtain ⟨rfl, represents, nonempty⟩ := known
          obtain ⟨item, rest, rfl⟩ := List.exists_cons_of_ne_nil nonempty
          exact ⟨item :: rest, by simp [serve, failed], represents⟩
  | loadClearIndex item =>
      cases taken
      exact .work trivial trivial rfl fun _ known => ⟨rfl, known⟩
  | clearSlot item index =>
      cases taken
      refine .work trivial trivial rfl ?_
      intro queue known
      obtain ⟨rfl, copied, ⟨holds, count⟩, rest, rfl⟩ := known
      exact ⟨copied, rest, ⟨rfl, holds.currentNonneg, holds.pop⟩, count⟩
  | loadCount item =>
      cases taken
      exact .work trivial trivial rfl fun _ known => known
  | storeCount item loaded =>
      cases taken
      refine .work trivial trivial rfl ?_
      intro queue known
      obtain ⟨copied, rest, ⟨rfl, popping⟩, rfl⟩ := known
      refine ⟨copied, rest, ⟨rfl, popping⟩, ?_⟩
      simp
  | loadCurrentIndex item =>
      cases taken
      refine .work trivial trivial rfl ?_
      intro queue known
      obtain ⟨copied, rest, popping, count⟩ := known
      exact ⟨copied, rest, popping, count, rfl⟩
  | storeCurrentIndex item loaded =>
      cases taken
      refine .work trivial trivial rfl ?_
      intro queue known
      obtain ⟨copied, rest, ⟨rfl, nonneg, holds⟩, count, rfl⟩ := known
      refine ⟨rest, by simp [serve, copied], ?_, count⟩
      rw [← Int.tmod_eq_emod_of_nonneg (by omega)] at holds
      exact holds
  | spinUnlock result => cases taken

theorem dequeue_ends {copies : Bool} {point : DequeuePoint} {result : Result}
    (taken : doSysKbDequeue copies s point = some (s', .ret result)) :
    Ends s s' (.running (.dequeue copies point)) (.dequeue copies) result := by
  cases point with
  | spinUnlock status =>
      cases taken
      exact ⟨trivial, rfl, fun _ served => served⟩
  | spinLock =>
      obtain ⟨locked, acquired, same⟩ := Option.map_eq_some_iff.mp taken
      cases same
  | testCount | loadCopyIndex | copyToUser | loadClearIndex | clearSlot | loadCount | storeCount
  | loadCurrentIndex | storeCurrentIndex => cases taken

theorem owns_initLoop (index : Int) : Owns (.running (.init (initLoop index))) := by
  unfold initLoop
  split <;> trivial

theorem initKnows_initLoop (s : Variables) (index : Int) : InitKnows s (initLoop index) := by
  unfold initLoop
  split <;> trivial

theorem init_keeps {point next : InitPoint}
    (free : point = .spinLockInit → s.locked = false)
    (taken : doSysKbInit s point = some (s', .goto next)) :
    Keeps s s' (.running (.init point)) (.running (.init next)) := by
  cases point with
  | spinLockInit =>
      cases taken
      have unchanged : spinLockInit s = s := by
        rw [spinLockInit, ← free rfl]
      rw [unchanged]
      exact .bystander id id
  | spinLock =>
      obtain ⟨locked, acquired, same⟩ := Option.map_eq_some_iff.mp taken
      obtain ⟨free, rfl⟩ := spinLock_eq_some_iff.mp acquired
      cases same
      exact .acquire free (owns_initLoop 0) fun _ _ => initKnows_initLoop s 0
  | clearSlot index =>
      cases taken
      exact .work trivial (owns_initLoop _) rfl fun _ _ => initKnows_initLoop _ _
  | storeCount =>
      cases taken
      exact .work trivial trivial rfl fun _ _ => rfl
  | storeCurrentIndex =>
      cases taken
      exact .work trivial trivial rfl fun _ count =>
        ⟨.empty le_rfl (show (0 : Int) < 5 by decide), count⟩
  | spinUnlock => cases taken

theorem init_ends {point : InitPoint} {result : Result}
    (taken : doSysKbInit s point = some (s', .ret result)) :
    Ends s s' (.running (.init point)) .init result := by
  cases point with
  | spinUnlock =>
      cases taken
      exact ⟨trivial, rfl, fun _ represents => ⟨[], rfl, represents⟩⟩
  | spinLock =>
      obtain ⟨locked, acquired, same⟩ := Option.map_eq_some_iff.mp taken
      cases same
  | spinLockInit | clearSlot | storeCount | storeCurrentIndex => cases taken

private theorem represents_of_empty (count : s.count = 0) (currentIndex : s.currentIndex = 0) :
    Represents s [] := by
  refine ⟨.empty ?_ ?_, count⟩
  · exact currentIndex.ge
  · rw [currentIndex]
    exact (show (0 : Int) < 5 by decide)

/-- A thread enqueues an item because it did before, or because the item has
passed the test for negative ones. -/
private theorem transition_item {item : Int} {point : EnqueuePoint}
    (taken : Transition s source s' target) (running : target = .running (.enqueue item point)) :
    0 ≤ item ∨ ∃ earlier, source = .running (.enqueue item earlier) := by
  cases taken with
  | @call _ call =>
      left
      cases call with
      | enqueue other =>
          simp only [start] at running
          split at running
          · cases running
          · next passed =>
              cases running
              exact not_lt.mp passed
      | dequeue | init => cases running
  | @enqueue _ _ other earlier control worked =>
      right
      cases control with
      | goto next =>
          cases running
          exact ⟨earlier, rfl⟩
      | ret result => cases running
  | @dequeue _ _ copies earlier control worked => cases control <;> cases running
  | @init _ _ earlier control worked => cases control <;> cases running
  | collect => cases running

/-! ## Whole runs -/

/-- The call that a thread is back from, with its result. -/
def outcome : Phase → Option (Call × Result)
  | .returned call result => some (call, result)
  | .idle | .running _ => none

private theorem outcome_eq_some_iff {phase : Phase} {call : Call} {result : Result} :
    outcome phase = some (call, result) ↔ phase = .returned call result := by
  cases phase <;> simp [outcome]

def history {ι : Type} (moves : List (Move ι Phase)) : List (Call × Result) :=
  moves.filterMap fun move => outcome move.target

def reinitialises : Phase → Bool
  | .running (.init .spinLockInit) => true
  | _ => false

section

variable {ι : Type}

/-- When the step is a `spin_lock_init`, the lock is free. -/
def LockFree (config : Config ι Variables Phase) (move : Move ι Phase) : Prop :=
  reinitialises move.source → config.shared.locked = false

instance (config : Config ι Variables Phase) (move : Move ι Phase) :
    Decidable (LockFree config move) :=
  inferInstanceAs (Decidable (reinitialises move.source → config.shared.locked = false))

def Linearized (moves : List (Move ι Phase)) (config : Config ι Variables Phase) : Prop :=
  ∃ queue, Legal serve [] (history moves) queue ∧
    LockInvariant (units config.shared) Owns (Represents config.shared queue)
      (Knows config.shared queue) config.thread

variable {moves : List (Move ι Phase)} {config : Config ι Variables Phase} [DecidableEq ι]
  {thread : ι} {shared : Variables}

theorem Linearized.keep (linearized : Linearized moves config)
    (keeps : Keeps config.shared shared (config.thread thread) target)
    (incomplete : outcome target = none) :
    Linearized (moves ++ [⟨thread, config.thread thread, target⟩])
      (config.advance thread shared target) := by
  obtain ⟨queue, legal, valid⟩ := linearized
  refine ⟨queue, ?_, valid.step (keeps queue)⟩
  have unchanged : history (moves ++ [⟨thread, config.thread thread, target⟩]) = history moves := by
    simp [history, incomplete]
  rw [unchanged]
  exact legal

theorem Linearized.finish (linearized : Linearized moves config) {call : Call} {result : Result}
    (ends : Ends config.shared shared (config.thread thread) call result) :
    Linearized (moves ++ [⟨thread, config.thread thread, .returned call result⟩])
      (config.advance thread shared (.returned call result)) := by
  obtain ⟨queue, legal, valid⟩ := linearized
  obtain ⟨owner, rfl, serves⟩ := ends
  obtain ⟨held, _, known⟩ := valid.owner owner
  obtain ⟨next, served, represents⟩ := serves queue known
  refine ⟨next, ?_, valid.step (.release owner id ?_ fun _ => represents)⟩
  · rw [history, List.filterMap_append]
    exact legal.snoc served
  · rw [held]
    rfl

/-- A step inside a call goes on to a further point or ends the call. -/
theorem Linearized.work (linearized : Linearized moves config) {P : Type} {inject : P → Point}
    {call : Call} {control : Control P Result} {source : Phase}
    (here : config.thread thread = source)
    (keeps : ∀ next, control = .goto next →
      Keeps config.shared shared source (.running (inject next)))
    (ends : ∀ result, control = .ret result → Ends config.shared shared source call result) :
    Linearized (moves ++ [⟨thread, source, .after inject call control⟩])
      (config.advance thread shared (.after inject call control)) := by
  subst here
  cases control with
  | goto next => exact linearized.keep (keeps next rfl) rfl
  | ret result => exact linearized.finish (ends result rfl)

theorem Linearized.refuse (linearized : Linearized moves config) {item : Int} (negative : item < 0)
    (idle : config.thread thread = .idle) :
    Linearized (moves ++ [⟨thread, config.thread thread,
        .returned (.enqueue item) { status := -2 }⟩])
      (config.advance thread config.shared (.returned (.enqueue item) { status := -2 })) := by
  obtain ⟨queue, legal, valid⟩ := linearized
  refine ⟨queue, ?_, valid.step (.bystander ?_ id rfl id fun _ => id)⟩
  · rw [history, List.filterMap_append]
    exact legal.snoc (by rw [serve, if_pos negative])
  · rw [idle]
    exact id

theorem Linearized.begin (linearized : Linearized moves config) {call : Call}
    (idle : config.thread thread = .idle) :
    Linearized (moves ++ [⟨thread, config.thread thread, start call⟩])
      (config.advance thread config.shared (start call)) := by
  have outside : ¬ Owns (config.thread thread) := by rw [idle]; exact id
  cases call with
  | enqueue item =>
      simp only [start]
      split
      · next negative => exact linearized.refuse negative idle
      · exact linearized.keep (.bystander outside id) rfl
  | dequeue copies => exact linearized.keep (.bystander outside id) rfl
  | init => exact linearized.keep (.bystander outside id) rfl

theorem Linearized.step (linearized : Linearized moves config)
    (items : ∀ i item point, config.thread i = .running (.enqueue item point) → 0 ≤ item)
    {move : Move ι Phase} {next : Config ι Variables Phase} (lockFree : LockFree config move)
    (taken : config.Step program move next) : Linearized (moves ++ [move]) next := by
  obtain @⟨thread, shared, target, stepped⟩ := taken
  have nonneg := items thread
  have free : reinitialises (config.thread thread) → config.shared.locked = false := lockFree
  generalize source : config.thread thread = phase at stepped nonneg free
  cases transition_of_program stepped with
  | call =>
      rw [← source]
      exact linearized.begin source
  | @enqueue _ _ item point control worked =>
      refine linearized.work source ?_ ?_
      · rintro next rfl
        exact enqueue_keeps (nonneg item point rfl) worked
      · rintro result rfl
        exact enqueue_ends worked
  | dequeue worked =>
      refine linearized.work source ?_ ?_
      · rintro next rfl
        exact dequeue_keeps worked
      · rintro result rfl
        exact dequeue_ends worked
  | @init _ _ point control worked =>
      refine linearized.work source ?_ ?_
      · rintro next rfl
        exact init_keeps (by rintro rfl; exact free rfl) worked
      · rintro result rfl
        exact init_ends worked
  | collect =>
      rw [← source]
      refine linearized.keep (.bystander ?_ id) rfl
      rw [source]
      exact id

theorem running_item_nonneg {start : Variables}
    (reachable : Reachable program (initial start) config) :
    ∀ i item point, config.thread i = .running (.enqueue item point) → 0 ≤ item := by
  refine reachable.preserves (fun config => ∀ i item point,
    config.thread i = .running (.enqueue item point) → 0 ≤ item) ?_ ?_
  · intro i item point running
    cases running
  · intro config thread shared target nonneg stepped i item point running
    by_cases moved : i = thread
    · subst moved
      rw [Config.advance_thread, Function.update_self] at running
      rcases transition_item (transition_of_program stepped) running with passed | ⟨earlier, same⟩
      · exact passed
      · exact nonneg i item earlier same
    · rw [Config.advance_thread, Function.update_of_ne moved] at running
      exact nonneg i item point running

theorem linearized_of_run {start : Variables} (locked : start.locked = false)
    (count : start.count = 0) (currentIndex : start.currentIndex = 0)
    (run : Run program LockFree (initial start) moves config) : Linearized moves config := by
  induction run with
  | refl =>
      refine ⟨[], .nil, .inl ⟨?_, fun _ => id, represents_of_empty count currentIndex⟩⟩
      simp [initial, Config.uniform, units, locked]
  | snoc run lockFree taken ih => exact ih.step (running_item_nonneg run.reachable) lockFree taken

/-! ## Runs without re-initialisation -/

def inInit : Phase → Bool
  | .running (.init _) | .returned .init _ => true
  | _ => false

private theorem inInit_of_reinitialises {phase : Phase} (here : reinitialises phase) :
    inInit phase := by
  unfold reinitialises at here
  split at here
  · rfl
  · cases here

/-- The step does not lead into a `do_sys_kb_init`. -/
def NoInit (_ : Config ι Variables Phase) (move : Move ι Phase) : Prop := ¬ inInit move.target

instance (config : Config ι Variables Phase) (move : Move ι Phase) :
    Decidable (NoInit config move) :=
  inferInstanceAs (Decidable (¬ inInit move.target))

private theorem lockFree_of_noInit {start : Variables}
    (run : Run program NoInit (initial start) moves config) :
    Run program LockFree (initial start) moves config ∧
      ∀ i, ¬ inInit (config.thread i) := by
  induction run with
  | refl => exact ⟨.refl, fun _ => Bool.false_ne_true⟩
  | snoc _ noInit taken ih =>
      obtain ⟨lockFree, outside⟩ := ih
      obtain @⟨thread, shared, target, stepped⟩ := taken
      refine ⟨lockFree.snoc ?_ (.intro stepped), ?_⟩
      · intro here
        exact absurd (inInit_of_reinitialises here) (outside thread)
      · intro i
        by_cases moved : i = thread
        · subst moved
          rw [Config.advance_thread, Function.update_self]
          exact noInit
        · rw [Config.advance_thread, Function.update_of_ne moved]
          exact outside i

private theorem history_noInit {start : Variables}
    (run : Run program NoInit (initial start) moves config) :
    ∀ entry ∈ history moves, entry.1 ≠ .init := by
  induction run with
  | refl => simp [history]
  | @snoc moves _ _ move _ noInit _ ih =>
      intro entry member
      rw [history, List.filterMap_append, List.mem_append] at member
      rcases member with earlier | last
      · exact ih entry earlier
      · obtain ⟨_, same, completed⟩ := List.mem_filterMap.mp last
        obtain rfl := List.mem_singleton.mp same
        intro init
        have target := outcome_eq_some_iff.mp completed
        apply noInit
        rw [target, init]
        rfl

theorem linearized_of_noInit {origin : Variables}
    (fresh : origin = boot ∨ ∃ s, origin = completedInit s)
    (run : Run program NoInit (initial origin) moves config) : Linearized moves config := by
  rcases fresh with rfl | ⟨s, rfl⟩
  · exact linearized_of_run rfl rfl rfl (lockFree_of_noInit run).1
  · exact linearized_of_run rfl rfl rfl (lockFree_of_noInit run).1

theorem conserved_of_noInit {origin : Variables}
    (run : Run program NoInit (initial origin) moves config) {queue : List Int}
    (legal : Legal serve [] (history moves) queue) :
    (history moves).filterMap accepts = (history moves).filterMap delivers ++ queue :=
  legal.conserves accepts delivers fun member => serve_accounts (history_noInit run _ member)

/-- The calls are a linearizable queue. In the order in which they release the
lock, they answer as the sequential queue does, refused negative items
included, so the items delivered and those still queued are the items accepted,
in that order. Whenever the lock is free, the ring holds the queued items. -/
theorem syscalls_linearizable_fifo {origin : Variables}
    (fresh : origin = boot ∨ ∃ s, origin = completedInit s)
    (run : Run program NoInit (initial origin) moves config) :
    ∃ queue, Legal serve [] (history moves) queue ∧
      (history moves).filterMap accepts = (history moves).filterMap delivers ++ queue ∧
      (config.shared.locked = false → Represents config.shared queue) := by
  obtain ⟨queue, legal, valid⟩ := linearized_of_noInit fresh run
  refine ⟨queue, legal, conserved_of_noInit run legal, ?_⟩
  intro free
  rcases valid with ⟨_, _, represents⟩ | ⟨taken, _⟩
  · exact represents
  · simp [units, free] at taken

/-- Thread 1 enqueues an item and is turned away with another. Thread 0 fails to
copy the first one out, tries again and has it. -/
def retrySchedule : List (Thread × Action) :=
  (.t1, .call (.enqueue 7)) :: (.t0, .call (.dequeue false)) :: steps .t1 9 ++
    (.t1, .call (.enqueue (-3))) :: steps .t0 6 ++
    (.t0, .call (.dequeue true)) :: steps .t0 11

theorem syscalls_linearizable_fifo_retry :
    ∃ (moves : _) (config : Config Thread _ _),
      Run program NoInit (initial boot) moves config ∧
      outcome (config.thread .t0) = some (.dequeue true, { status := 0, item := some 7 }) ∧
      ∃ queue, Legal serve [] (history moves) queue ∧
        (history moves).filterMap accepts = (history moves).filterMap delivers ++ queue := by
  obtain ⟨moves, config, run, checked⟩ := run_of_execute boot NoInit retrySchedule
    (fun config => outcome (config.thread .t0) ==
      some (.dequeue true, { status := 0, item := some 7 })) rfl
  obtain ⟨queue, legal, conserved, _⟩ := syscalls_linearizable_fifo (.inl rfl) run
  exact ⟨moves, config, run, beq_iff_eq.mp checked, queue, legal, conserved⟩

end

end Kboard.Syscall
