import Kboard.Concurrency.Interleaving
import Mathlib.Logic.Function.Basic

/-!
# The kboard system calls

`do_sys_kb_enqueue`, `do_sys_kb_dequeue` and `do_sys_kb_init`, one lock
operation, load or store at a time. A lock is either free or held: `spin_lock`
waits until it is free, `spin_unlock` and `spin_lock_init` make it free,
whoever holds it. `Ring` is addressed by integers as in C. The loads that only
feed a `printk` are left out.
-/

set_option autoImplicit false

namespace Kboard.Syscall

open Concurrency

def maxClip : Int := 5
def initValue : Int := -1

structure Variables where
  locked : Bool
  ring : Int → Int
  count : Int
  currentIndex : Int

/-- A system call. Whether `copy_to_user` will succeed for the buffer of a
dequeue is up to its caller; each dequeue copies at most once. -/
inductive Call where
  | enqueue (item : Int)
  | dequeue (copies : Bool)
  | init
  deriving DecidableEq

/-- What a call returns, and the item a dequeue has copied to its caller. -/
structure Result where
  status : Int
  item : Option Int := none
  deriving DecidableEq

inductive EnqueuePoint where
  | spinLock
  | testCount
  | loadCurrentIndex
  | loadTailCount (index : Int)
  | storeItem (slot : Int)
  | loadCount
  | storeCount (loaded : Int)
  | spinUnlock (status : Int)

inductive DequeuePoint where
  | spinLock
  | testCount
  | loadCopyIndex
  | copyToUser (index : Int)
  | loadClearIndex (item : Int)
  | clearSlot (item index : Int)
  | loadCount (item : Int)
  | storeCount (item loaded : Int)
  | loadCurrentIndex (item : Int)
  | storeCurrentIndex (item loaded : Int)
  | spinUnlock (result : Result)

inductive InitPoint where
  | spinLockInit
  | spinLock
  | clearSlot (index : Int)
  | storeCount
  | storeCurrentIndex
  | spinUnlock

inductive Point where
  | enqueue (item : Int) (point : EnqueuePoint)
  | dequeue (copies : Bool) (point : DequeuePoint)
  | init (point : InitPoint)

def Point.call : Point → Call
  | .enqueue item _ => .enqueue item
  | .dequeue copies _ => .dequeue copies
  | .init _ => .init

def spinLock (s : Variables) : Option Variables :=
  if s.locked then none else some { s with locked := true }

def spinUnlock (s : Variables) : Variables := { s with locked := false }

def spinLockInit (s : Variables) : Variables := { s with locked := false }

def doSysKbEnqueue (item : Int) (s : Variables) :
    EnqueuePoint → Option (Variables × Control EnqueuePoint Result)
  | .spinLock => (spinLock s).map fun s => (s, .goto .testCount)
  | .testCount =>
      some (s, .goto (if s.count ≥ maxClip then .spinUnlock (-1) else .loadCurrentIndex))
  | .loadCurrentIndex => some (s, .goto (.loadTailCount s.currentIndex))
  | .loadTailCount index => some (s, .goto (.storeItem ((index + s.count).tmod maxClip)))
  | .storeItem slot => some ({ s with ring := Function.update s.ring slot item }, .goto .loadCount)
  | .loadCount => some (s, .goto (.storeCount s.count))
  | .storeCount loaded => some ({ s with count := loaded + 1 }, .goto (.spinUnlock 0))
  | .spinUnlock status => some (spinUnlock s, .ret { status })

def doSysKbDequeue (copies : Bool) (s : Variables) :
    DequeuePoint → Option (Variables × Control DequeuePoint Result)
  | .spinLock => (spinLock s).map fun s => (s, .goto .testCount)
  | .testCount =>
      some (s, .goto (if s.count ≤ 0 then .spinUnlock { status := -1 } else .loadCopyIndex))
  | .loadCopyIndex => some (s, .goto (.copyToUser s.currentIndex))
  | .copyToUser index =>
      some (s, .goto (if copies then .loadClearIndex (s.ring index)
        else .spinUnlock { status := -2 }))
  | .loadClearIndex item => some (s, .goto (.clearSlot item s.currentIndex))
  | .clearSlot item index =>
      some ({ s with ring := Function.update s.ring index initValue }, .goto (.loadCount item))
  | .loadCount item => some (s, .goto (.storeCount item s.count))
  | .storeCount item loaded =>
      some ({ s with count := loaded - 1 }, .goto (.loadCurrentIndex item))
  | .loadCurrentIndex item => some (s, .goto (.storeCurrentIndex item s.currentIndex))
  | .storeCurrentIndex item loaded =>
      some ({ s with currentIndex := (loaded + 1).tmod maxClip },
        .goto (.spinUnlock { status := 0, item := some item }))
  | .spinUnlock result => some (spinUnlock s, .ret result)

def initLoop (index : Int) : InitPoint :=
  if index < maxClip then .clearSlot index else .storeCount

def doSysKbInit (s : Variables) : InitPoint → Option (Variables × Control InitPoint Result)
  | .spinLockInit => some (spinLockInit s, .goto .spinLock)
  | .spinLock => (spinLock s).map fun s => (s, .goto (initLoop 0))
  | .clearSlot index =>
      some ({ s with ring := Function.update s.ring index initValue },
        .goto (initLoop (index + 1)))
  | .storeCount => some ({ s with count := 0 }, .goto .storeCurrentIndex)
  | .storeCurrentIndex => some ({ s with currentIndex := 0 }, .goto .spinUnlock)
  | .spinUnlock => some (spinUnlock s, .ret { status := 0 })

/-! ## Threads -/

inductive Phase where
  | idle
  | running (point : Point)
  | returned (call : Call) (result : Result)

inductive Action where
  | call (call : Call)
  | advance

/-- A negative item is turned away before the lock is touched. -/
def start : Call → Phase
  | .enqueue item =>
      if item < 0 then .returned (.enqueue item) { status := -2 }
      else .running (.enqueue item .spinLock)
  | .dequeue copies => .running (.dequeue copies .spinLock)
  | .init => .running (.init .spinLockInit)

def Phase.after {P : Type} (inject : P → Point) (call : Call) : Control P Result → Phase
  | .goto point => .running (inject point)
  | .ret result => .returned call result

def step (s : Variables) : Phase → Action → Option (Variables × Phase)
  | .idle, .call call => some (s, start call)
  | .running (.enqueue item point), .advance =>
      (doSysKbEnqueue item s point).map fun (s, control) =>
        (s, .after (.enqueue item) (.enqueue item) control)
  | .running (.dequeue copies point), .advance =>
      (doSysKbDequeue copies s point).map fun (s, control) =>
        (s, .after (.dequeue copies) (.dequeue copies) control)
  | .running (.init point), .advance =>
      (doSysKbInit s point).map fun (s, control) => (s, .after .init .init control)
  | .returned _ _, .advance => some (s, .idle)
  | _, _ => none

def program : Program Variables Phase := Program.ofStep step

/-- The kernel's zero-initialised variables. -/
def boot : Variables := ⟨false, fun _ => 0, 0, 0⟩

/-- What a `do_sys_kb_init` that is not disturbed leaves of any state. -/
def completedInit (s : Variables) : Variables where
  locked := false
  ring := (List.range maxClip.toNat).foldl
    (fun ring index => Function.update ring (index : Int) initValue) s.ring
  count := 0
  currentIndex := 0

def initial {ι : Type} (s : Variables) : Config ι Variables Phase := Config.uniform s .idle

/-- A thread that runs `do_sys_kb_init` by itself ends with `completedInit`. -/
theorem execute_init (s : Variables) :
    (execute step (fun _ _ => True) (initial s : Config Unit Variables Phase)
        (((), .call .init) :: List.replicate 11 ((), .advance))).map
        (fun config => (config.shared, config.thread ())) =
      some (completedInit s, .idle) := rfl

theorem run_of_execute {ι : Type} [DecidableEq ι] (s : Variables)
    (allowed : Config ι Variables Phase → Move ι Phase → Prop)
    [∀ config move, Decidable (allowed config move)] (schedule : List (ι × Action))
    (check : Config ι Variables Phase → Bool)
    (passed : (execute step allowed (initial s) schedule).any check = true) :
    ∃ moves config, Run program allowed (initial s) moves config ∧ check config = true :=
  execute_any passed

/-- A piece of a schedule: the thread takes that many steps of its call. -/
def steps (thread : Thread) (count : Nat) : List (Thread × Action) :=
  List.replicate count (thread, .advance)

/-! ## What a step can do -/

inductive Transition : Program Variables Phase where
  | call {s : Variables} {call : Call} : Transition s .idle s (start call)
  | enqueue {s s' : Variables} {item : Int} {point : EnqueuePoint}
      {control : Control EnqueuePoint Result}
      (taken : doSysKbEnqueue item s point = some (s', control)) :
      Transition s (.running (.enqueue item point)) s'
        (.after (.enqueue item) (.enqueue item) control)
  | dequeue {s s' : Variables} {copies : Bool} {point : DequeuePoint}
      {control : Control DequeuePoint Result}
      (taken : doSysKbDequeue copies s point = some (s', control)) :
      Transition s (.running (.dequeue copies point)) s'
        (.after (.dequeue copies) (.dequeue copies) control)
  | init {s s' : Variables} {point : InitPoint} {control : Control InitPoint Result}
      (taken : doSysKbInit s point = some (s', control)) :
      Transition s (.running (.init point)) s' (.after .init .init control)
  | collect {s : Variables} {call : Call} {result : Result} :
      Transition s (.returned call result) s .idle

theorem transition_of_program {s s' : Variables} {source target : Phase}
    (taken : program s source s' target) : Transition s source s' target := by
  obtain ⟨action, taken⟩ := taken
  cases source with
  | idle =>
      cases action with
      | call call => cases taken; exact .call
      | advance => cases taken
  | running point =>
      cases action with
      | call call => cases point <;> cases taken
      | advance =>
          cases point with
          | enqueue item point =>
              obtain ⟨⟨next, control⟩, worked, same⟩ := Option.map_eq_some_iff.mp taken
              cases same
              exact .enqueue worked
          | dequeue copies point =>
              obtain ⟨⟨next, control⟩, worked, same⟩ := Option.map_eq_some_iff.mp taken
              cases same
              exact .dequeue worked
          | init point =>
              obtain ⟨⟨next, control⟩, worked, same⟩ := Option.map_eq_some_iff.mp taken
              cases same
              exact .init worked
  | returned call result =>
      cases action with
      | call call => cases taken
      | advance => cases taken; exact .collect

theorem spinLock_eq_some_iff {s s' : Variables} :
    spinLock s = some s' ↔ s.locked = false ∧ s' = { s with locked := true } := by
  unfold spinLock
  cases s.locked with
  | false => simp [eq_comm]
  | true => simp

end Kboard.Syscall
