import Kboard.Concurrency.Interleaving
import Kboard.Concurrency.Lock
import Kboard.Concurrency.Tally

/-!
# The lightswitch

A group of threads shares a room semaphore: a counter under a mutex makes the
first member in take the room and the last member out give it back, possibly
on behalf of another thread. Single occupants take and give back the room
themselves. The counter is an ordinary variable, so its increments, decrements
and tests are separate loads and stores.
-/

set_option autoImplicit false

namespace Kboard.Concurrency.Lightswitch

structure Shared where
  mutex : Nat
  room : Nat
  count : Int

inductive Stage where
  | outside
  | enterLoad
  | enterStore (loaded : Int)
  | enterTest
  | enterRoom
  | enterDone
  | inside
  | leaveLoad
  | leaveStore (loaded : Int)
  | leaveTest
  | leaveRoom
  | leaveDone
  | occupying

inductive Step : Program Shared Stage where
  | lockToEnter {s : Shared} {mutex : Nat} (taken : s.mutex = mutex + 1) :
      Step s .outside { s with mutex := mutex } .enterLoad
  | loadToEnter {s : Shared} : Step s .enterLoad s (.enterStore s.count)
  | storeToEnter {s : Shared} {loaded : Int} :
      Step s (.enterStore loaded) { s with count := loaded + 1 } .enterTest
  | firstMember {s : Shared} (first : s.count = 1) : Step s .enterTest s .enterRoom
  | laterMember {s : Shared} (later : s.count ≠ 1) : Step s .enterTest s .enterDone
  | takeRoom {s : Shared} {room : Nat} (taken : s.room = room + 1) :
      Step s .enterRoom { s with room := room } .enterDone
  | unlockInside {s : Shared} :
      Step s .enterDone { s with mutex := s.mutex + 1 } .inside
  | lockToLeave {s : Shared} {mutex : Nat} (taken : s.mutex = mutex + 1) :
      Step s .inside { s with mutex := mutex } .leaveLoad
  | loadToLeave {s : Shared} : Step s .leaveLoad s (.leaveStore s.count)
  | storeToLeave {s : Shared} {loaded : Int} :
      Step s (.leaveStore loaded) { s with count := loaded - 1 } .leaveTest
  | lastMember {s : Shared} (last : s.count = 0) : Step s .leaveTest s .leaveRoom
  | earlierMember {s : Shared} (earlier : s.count ≠ 0) : Step s .leaveTest s .leaveDone
  | giveRoom {s : Shared} :
      Step s .leaveRoom { s with room := s.room + 1 } .leaveDone
  | unlockOutside {s : Shared} :
      Step s .leaveDone { s with mutex := s.mutex + 1 } .outside
  | occupy {s : Shared} {room : Nat} (taken : s.room = room + 1) :
      Step s .outside { s with room := room } .occupying
  | vacate {s : Shared} :
      Step s .occupying { s with room := s.room + 1 } .outside

def Shared.initial : Shared := ⟨1, 1, 0⟩

namespace Stage

def Owns : Stage → Prop
  | outside | inside | occupying => False
  | _ => True

/-- A member that has counted itself and not yet tested the counter's value
to the end of its entry. -/
def joining : Stage → ℤ
  | enterTest | enterRoom | enterDone => 1
  | _ => 0

def settled : Stage → ℤ
  | inside | leaveLoad | leaveStore _ => 1
  | _ => 0

def member (stage : Stage) : ℤ := stage.joining + stage.settled

def occupant : Stage → ℤ
  | occupying => 1
  | _ => 0

theorem joining_nonneg (stage : Stage) : 0 ≤ stage.joining := by
  cases stage <;> simp [joining]

theorem settled_nonneg (stage : Stage) : 0 ≤ stage.settled := by
  cases stage <;> simp [settled]

theorem occupant_nonneg (stage : Stage) : 0 ≤ stage.occupant := by
  cases stage <;> simp [occupant]

theorem member_nonneg (stage : Stage) : 0 ≤ stage.member :=
  Int.add_nonneg stage.joining_nonneg stage.settled_nonneg

theorem member_le_one (stage : Stage) : stage.member ≤ 1 := by
  cases stage <;> simp [member, joining, settled]

end Stage

/-- What the mutex protects when nobody owns it: the counter counts the
members, and the one unit of the room is with the members as soon as there is
one, else with the semaphore or an occupant. -/
def Balanced (count members units : ℤ) : Prop :=
  count = members ∧ (0 < count ∧ units = 0 ∨ count = 0 ∧ units = 1)

/-- What the owner of the mutex knows at each stage. `units` are the units of
the room that are in the semaphore or with an occupant. -/
def Knows (count members units : ℤ) : Stage → Prop
  | .enterLoad | .leaveDone => Balanced count members units
  | .enterStore loaded => loaded = count ∧ Balanced count members units
  | .enterTest => count = members ∧ (1 < count ∧ units = 0 ∨ count = 1 ∧ units = 1)
  | .enterRoom => count = members ∧ count = 1 ∧ units = 1
  | .enterDone | .leaveLoad => count = members ∧ 0 < count ∧ units = 0
  | .leaveStore loaded => loaded = count ∧ count = members ∧ 0 < count ∧ units = 0
  | .leaveTest => count = members ∧ 0 ≤ count ∧ units = 0
  | .leaveRoom => count = members ∧ count = 0 ∧ units = 0
  | .outside | .inside | .occupying => True

theorem Knows.counted {count members units : ℤ} {stage : Stage} (owner : stage.Owns)
    (known : Knows count members units stage) : count = members := by
  cases stage with
  | enterLoad | leaveDone | enterTest | enterRoom | enterDone | leaveLoad | leaveTest
  | leaveRoom => exact known.1
  | enterStore | leaveStore => exact known.2.1
  | outside | inside | occupying => exact absurd owner id

section

universe u

variable {ι : Type u} [Fintype ι]

def units (config : Config ι Shared Stage) : ℤ :=
  config.shared.room + tally Stage.occupant config.thread

def Invariant (config : Config ι Shared Stage) : Prop :=
  LockInvariant config.shared.mutex Stage.Owns
    (Balanced config.shared.count (tally Stage.member config.thread) (units config))
    (Knows config.shared.count (tally Stage.member config.thread) (units config))
    config.thread

theorem invariant_initial :
    Invariant (Config.uniform Shared.initial Stage.outside : Config ι Shared Stage) := by
  have members : tally Stage.member (fun _ : ι => Stage.outside) = 0 := tally_eq_zero fun _ => rfl
  have occupants : tally Stage.occupant (fun _ : ι => Stage.outside) = 0 :=
    tally_eq_zero fun _ => rfl
  refine .inl ⟨rfl, fun _ owner => owner, ?_, .inr ?_⟩
  · simp [Config.uniform, Shared.initial, members]
  · simp [Config.uniform, Shared.initial, units, occupants]

/-! ## Preservation

The units of the room that the group does not hold are moved between the
semaphore and the occupants by threads that do not own the mutex, so only
their sum is protected by it. -/

/-- The account of one step. A thread counts towards `members` itself, which
is what the first line of a leave relies on. -/
theorem Step.lockStep {s s' : Shared} {source target : Stage} (taken : Step s source s' target)
    {members occupants : ℤ} (counted : source.member ≤ members) :
    LockStep Stage.Owns s.mutex s'.mutex
      (Balanced s.count members (s.room + occupants))
      (Balanced s'.count (members + (target.member - source.member))
        (s'.room + (occupants + (target.occupant - source.occupant))))
      (Knows s.count members (s.room + occupants))
      (Knows s'.count (members + (target.member - source.member))
        (s'.room + (occupants + (target.occupant - source.occupant)))) source target := by
  cases taken <;> simp only [Stage.member, Stage.joining, Stage.settled, Stage.occupant] at *
  case lockToEnter taken =>
      exact .acquire taken trivial fun held => by simpa [Knows] using held
  case loadToEnter =>
      exact .work trivial trivial rfl fun known => by simpa [Knows] using known
  case storeToEnter =>
      exact .work trivial trivial rfl fun known => by simp only [Knows, Balanced] at *; omega
  case firstMember first =>
      exact .work trivial trivial rfl fun known => by simp only [Knows] at *; omega
  case laterMember later =>
      exact .work trivial trivial rfl fun known => by simp only [Knows] at *; omega
  case takeRoom taken =>
      exact .work trivial trivial rfl fun known => by simp only [Knows] at *; omega
  case unlockInside =>
      exact .release trivial id rfl fun known => by simp only [Knows, Balanced] at *; omega
  case lockToLeave taken =>
      exact .acquire taken trivial fun held => by simp only [Knows, Balanced] at *; omega
  case loadToLeave =>
      exact .work trivial trivial rfl fun known => by simpa [Knows] using known
  case storeToLeave =>
      exact .work trivial trivial rfl fun known => by simp only [Knows] at *; omega
  case lastMember last =>
      exact .work trivial trivial rfl fun known => by simp only [Knows] at *; omega
  case earlierMember earlier =>
      exact .work trivial trivial rfl fun known => by simp only [Knows, Balanced] at *; omega
  case giveRoom =>
      exact .work trivial trivial rfl fun known => by simp only [Knows, Balanced] at *; omega
  case unlockOutside =>
      exact .release trivial id rfl fun known => by simp only [Knows, Balanced] at *; omega
  case occupy room taken =>
      have same : ((room : ℤ) + (occupants + (1 - 0))) = s.room + occupants := by omega
      exact .bystander id id rfl (fun held => by rw [same]; simpa using held)
        (fun _ known => by rw [same]; simpa using known)
  case vacate =>
      have same : (((s.room + 1 : Nat) : ℤ) + (occupants + (0 - 1))) = s.room + occupants := by
        omega
      exact .bystander id id rfl (fun held => by rw [same]; simpa using held)
        (fun _ known => by rw [same]; simpa using known)

theorem Invariant.step [DecidableEq ι] {config : Config ι Shared Stage} {thread : ι}
    {shared : Shared} {target : Stage} (valid : Invariant config)
    (taken : Step config.shared (config.thread thread) shared target) :
    Invariant (config.advance thread shared target) := by
  unfold Invariant at valid ⊢
  simp only [units, Config.advance_shared, Config.advance_thread, tally_update]
  exact LockInvariant.step valid
    (taken.lockStep (weight_le_tally Stage.member_nonneg config.thread thread))

theorem invariant_of_reachable [DecidableEq ι] {config : Config ι Shared Stage}
    (reachable : Reachable Step (Config.uniform Shared.initial Stage.outside) config) :
    Invariant config :=
  reachable.preserves Invariant invariant_initial fun valid taken => valid.step taken

/-! ## Consequences -/

section

variable {config : Config ι Shared Stage}

/-- At most one unit is outside the group, and none while a member is settled. -/
theorem Invariant.exclusion (valid : Invariant config) :
    units config ≤ 1 ∧ (0 < units config → tally Stage.settled config.thread = 0) := by
  have split : tally Stage.member config.thread =
      tally Stage.joining config.thread + tally Stage.settled config.thread :=
    Finset.sum_add_distrib
  have settledNonneg := tally_nonneg Stage.settled_nonneg config.thread
  have joiningNonneg := tally_nonneg Stage.joining_nonneg config.thread
  rcases valid with ⟨_, _, held⟩ | ⟨_, holder, owner, _, known⟩
  · simp only [Balanced] at held
    omega
  · have joined := weight_le_tally Stage.joining_nonneg config.thread holder
    generalize config.thread holder = stage at owner known joined
    cases stage <;> simp only [Stage.Owns, Knows, Balanced, Stage.joining] at owner known joined <;>
      omega

theorem Invariant.occupying_unique [DecidableEq ι] (valid : Invariant config) {i j : ι}
    (mine : config.thread i = .occupying) (theirs : config.thread j = .occupying) : i = j := by
  obtain ⟨atMostOne, _⟩ := valid.exclusion
  by_contra different
  have both := weight_add_weight_le_tally Stage.occupant_nonneg config.thread different
  simp only [mine, theirs, Stage.occupant, units] at atMostOne both
  omega

theorem Invariant.not_settled (valid : Invariant config) {i j : ι}
    (occupied : config.thread i = .occupying) : (config.thread j).settled = 0 := by
  obtain ⟨_, noMember⟩ := valid.exclusion
  have counted := weight_le_tally Stage.occupant_nonneg config.thread i
  have bounded := weight_le_tally Stage.settled_nonneg config.thread j
  have nonneg := (config.thread j).settled_nonneg
  simp only [occupied, Stage.occupant, units] at noMember counted
  omega

/-- A settled member has the room for the group. -/
theorem Invariant.room_taken (valid : Invariant config) {i : ι}
    (settled : (config.thread i).settled = 1) : config.shared.room = 0 := by
  obtain ⟨_, noMember⟩ := valid.exclusion
  have counted := weight_le_tally Stage.settled_nonneg config.thread i
  have occupants := tally_nonneg Stage.occupant_nonneg config.thread
  simp only [settled, units] at noMember counted
  omega

/-- The counter is a number of threads. -/
theorem Invariant.count_bounds (valid : Invariant config) :
    0 ≤ config.shared.count ∧ config.shared.count ≤ Fintype.card ι := by
  have counted : config.shared.count = tally Stage.member config.thread := by
    rcases valid with ⟨_, _, balanced⟩ | ⟨_, holder, owner, _, known⟩
    · exact balanced.1
    · exact known.counted owner
  rw [counted]
  exact ⟨tally_nonneg Stage.member_nonneg config.thread,
    tally_le_card Stage.member_le_one config.thread⟩

theorem Invariant.room_le_one (valid : Invariant config) : config.shared.room ≤ 1 := by
  obtain ⟨atMostOne, _⟩ := valid.exclusion
  have occupants := tally_nonneg Stage.occupant_nonneg config.thread
  simp only [units] at atMostOne
  omega

/-- When everybody has left, the switch is as it was set up. -/
theorem Invariant.restored (valid : Invariant config)
    (outside : ∀ i, config.thread i = .outside) : config.shared = Shared.initial := by
  have members : tally Stage.member config.thread = 0 :=
    tally_eq_zero fun i => by rw [outside i]; rfl
  have occupants : tally Stage.occupant config.thread = 0 :=
    tally_eq_zero fun i => by rw [outside i]; rfl
  obtain ⟨free, counted, balance⟩ := valid.free fun i => by rw [outside i]; exact id
  rw [members] at counted
  have unit : config.shared.room = 1 := by
    rcases balance with ⟨some, _⟩ | ⟨_, unit⟩
    · omega
    · rw [units, occupants] at unit
      omega
  cases shared : config.shared with
  | mk mutex room count =>
      simp only [shared] at free counted unit
      rw [free, counted, unit]
      rfl

theorem Step.room_stays_taken {s s' : Shared} {source target : Stage}
    (taken : Step s source s' target) (empty : s.room = 0) (notOccupying : source ≠ .occupying)
    (notGiving : source ≠ .leaveRoom) : s'.room = 0 ∧ target ≠ .occupying := by
  cases taken with
  | takeRoom taken | occupy taken => omega
  | giveRoom => exact absurd rfl notGiving
  | vacate => exact absurd rfl notOccupying
  | lockToEnter | loadToEnter | storeToEnter | firstMember | laterMember | unlockInside
  | lockToLeave | loadToLeave | storeToLeave | lastMember | earlierMember | unlockOutside =>
      exact ⟨empty, Stage.noConfusion⟩

/-- Somebody can always go on: an owner that does not wait for the room, an
occupant of the room, or, the mutex being free, whoever waits for the room or
is settled in it. -/
theorem Invariant.progress (valid : Invariant config) :
    (∃ i, (config.thread i).Owns ∧ (config.thread i = .enterRoom → 0 < config.shared.room)) ∨
      (∃ i, config.thread i = .occupying) ∨
      config.shared.mutex = 1 ∧ (0 < config.shared.room ∨ ∃ i, config.thread i = .inside) := by
  have occupied : 0 < tally Stage.occupant config.thread → ∃ i, config.thread i = .occupying := by
    intro positive
    obtain ⟨i, weight⟩ := exists_pos_of_tally_pos positive
    refine ⟨i, ?_⟩
    cases stage : config.thread i <;> simp [stage, Stage.occupant] at weight ⊢
  by_cases full : config.shared.room = 0
  · rcases valid with ⟨free, nobody, counted, held⟩ | ⟨_, holder, owner, _, known⟩
    · rcases held with ⟨some, _⟩ | ⟨_, unit⟩
      · -- The group holds the room, and a member outside the mutex is inside.
        rw [counted] at some
        obtain ⟨i, weight⟩ := exists_pos_of_tally_pos some
        refine .inr (.inr ⟨free, .inr ⟨i, ?_⟩⟩)
        have notOwner := nobody i
        cases stage : config.thread i <;>
          simp [stage, Stage.Owns, Stage.member, Stage.joining, Stage.settled] at weight notOwner ⊢
      · exact .inr (.inl (occupied (by simp only [units, full] at unit; omega)))
    · by_cases waits : config.thread holder = .enterRoom
      · rw [waits] at known
        obtain ⟨_, _, unit⟩ := known
        exact .inr (.inl (occupied (by simp only [units, full] at unit; omega)))
      · exact .inl ⟨holder, owner, fun same => absurd same waits⟩
  · rcases valid with ⟨free, _⟩ | ⟨_, holder, owner, _⟩
    · exact .inr (.inr ⟨free, .inl (by omega)⟩)
    · exact .inl ⟨holder, owner, fun _ => by omega⟩

end

end

end Kboard.Concurrency.Lightswitch
