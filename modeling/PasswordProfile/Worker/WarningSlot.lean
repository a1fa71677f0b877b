import Mathlib.Data.Fintype.Defs
import Mathlib.Data.UInt
import PasswordProfile.Foundation.Execution
import PasswordProfile.Login.ClientAuthHook

/-! # The rate limit of the degraded-state warnings

The time and the reason of the last warning are two words of shared memory.
Every caller of `claim_warning_slot` reads them one after the other, exchanges
the time and stores the reason, each in an atomic step of its own.
-/

namespace PasswordProfile.Worker

open AuthEvent Execution
open Login (PausedReason)

def warnIntervalUs : Int := 60000000

/-- `reason as u32`. -/
def rawReason : PausedReason → UInt32
  | .workerNotRunning => 0
  | .queueCorrupt => 1
  | .durableRecording => 2

/-- One call of `claim_warning_slot`; no two calls have the same serial. -/
structure WarningCall where
  serial : Nat
  now : Int
  reason : UInt32
  deriving DecidableEq, Repr

/-- The call returns `false` before it tries the exchange. -/
def WarningCall.suppressed (call : WarningCall) (last : Int)
    (recorded : UInt32) : Bool :=
  recorded == call.reason && last != 0 &&
    decide (saturatingSub call.now last < warnIntervalUs)

/-- Where a caller stands in `claim_warning_slot`. -/
inductive ClaimPhase
  | idle
  | started (call : WarningCall)
  | loadedTime (call : WarningCall) (last : Int)
  | exchanging (call : WarningCall) (last : Int) (recorded : UInt32)
  | storing (call : WarningCall)
  deriving DecidableEq, Repr

inductive WarningAction (Caller : Type u)
  | call (caller : Caller) (now : Int) (reason : UInt32)
  | loadTime (caller : Caller)
  | loadReason (caller : Caller)
  | exchange (caller : Caller)
  | storeReason (caller : Caller)
  deriving DecidableEq, Repr

structure WarningWorld (Caller : Type u) where
  /-- The latest clock reading that a call was made with. -/
  clock : Int
  lastWarnUs : Int
  lastWarnReason : UInt32
  callers : Caller → ClaimPhase
  calls : Nat
  /-- The calls that have loaded the time, the latest first. -/
  entered : List WarningCall
  /-- The calls whose exchange succeeded. -/
  exchanged : List WarningCall
  /-- The calls that returned `true`. -/
  warned : List WarningCall

namespace WarningWorld

variable {Caller : Type u}

def start (clock : Int) : WarningWorld Caller where
  clock
  lastWarnUs := 0
  lastWarnReason := 2 ^ 32 - 1
  callers _ := .idle
  calls := 0
  entered := []
  exchanged := []
  warned := []

section Steps

variable [DecidableEq Caller]

def withPhase (world : WarningWorld Caller) (caller : Caller)
    (phase : ClaimPhase) : WarningWorld Caller :=
  { world with callers := Function.update world.callers caller phase }

def enter (world : WarningWorld Caller) (call : WarningCall) :
    WarningWorld Caller :=
  { world with entered := call :: world.entered }

def win (world : WarningWorld Caller) (caller : Caller)
    (call : WarningCall) : WarningWorld Caller :=
  { world.withPhase caller (.storing call) with
    lastWarnUs := call.now
    exchanged := call :: world.exchanged }

def exchange (world : WarningWorld Caller) (caller : Caller)
    (call : WarningCall) (last : Int) : WarningWorld Caller :=
  if world.lastWarnUs = last then world.win caller call
  else world.withPhase caller .idle

def store (world : WarningWorld Caller) (caller : Caller)
    (call : WarningCall) : WarningWorld Caller :=
  { world.withPhase caller .idle with
    lastWarnReason := call.reason
    warned := call :: world.warned }

/-- Clock readings are not zero and do not decrease from call to call. -/
def machine : Machine (WarningWorld Caller) (WarningAction Caller) where
  step world
    | .call caller now reason =>
        match world.callers caller with
        | .idle =>
            if now ≠ 0 ∧ world.clock ≤ now then
              some { world.withPhase caller
                  (.started ⟨world.calls, now, reason⟩) with
                clock := now
                calls := world.calls + 1 }
            else none
        | _ => none
    | .loadTime caller =>
        match world.callers caller with
        | .started call =>
            some ((world.enter call).withPhase caller
              (.loadedTime call world.lastWarnUs))
        | _ => none
    | .loadReason caller =>
        match world.callers caller with
        | .loadedTime call last =>
            some (world.withPhase caller
              (if call.suppressed last world.lastWarnReason then .idle
              else .exchanging call last world.lastWarnReason))
        | _ => none
    | .exchange caller =>
        match world.callers caller with
        | .exchanging call last _ => some (world.exchange caller call last)
        | _ => none
    | .storeReason caller =>
        match world.callers caller with
        | .storing call => some (world.store caller call)
        | _ => none

end Steps

end WarningWorld

/-! ## The limit -/

def WarningCall.Apart (first second : WarningCall) : Prop :=
  first.now + warnIntervalUs ≤ second.now ∨
    second.now + warnIntervalUs ≤ first.now

instance (first second : WarningCall) : Decidable (first.Apart second) :=
  inferInstanceAs (Decidable (_ ∨ _))

def Spaced (calls : List WarningCall) : Prop :=
  ∀ first ∈ calls, ∀ second ∈ calls, first ≠ second →
    first.reason = second.reason → first.Apart second

instance (calls : List WarningCall) : Decidable (Spaced calls) :=
  inferInstanceAs (Decidable (∀ first ∈ calls, ∀ second ∈ calls, _ → _))

/-! ## Orderly schedules

Callers may overlap, as long as the words that a call loads belong together,
an exchange that finds the time it expects has missed nothing, and the reason
does not alternate within the interval.
-/

def ClaimPhase.isStoring : ClaimPhase → Bool
  | storing _ => true
  | _ => false

def ClaimPhase.expects (time : Int) : ClaimPhase → Bool
  | loadedTime _ last => last == time
  | exchanging _ last _ => last == time
  | _ => false

namespace WarningWorld

variable {Caller : Type u}

def RateLimited (world : WarningWorld Caller) : Prop := Spaced world.warned

/-- The two words belong together: no caller is between its exchange and its
store. -/
def Settled (world : WarningWorld Caller) : Prop :=
  ∀ caller, (world.callers caller).isStoring = false

def beforeOther (world : WarningWorld Caller) (reason : UInt32) :
    List WarningCall :=
  world.entered.dropWhile (·.reason == reason)

/-- No call for another reason has come since a call for this reason that is
less than an interval away. -/
def Unalternated (world : WarningWorld Caller) (call : WarningCall) : Prop :=
  ∀ earlier ∈ world.beforeOther call.reason,
    earlier.reason = call.reason → earlier.Apart call

def Unexpected (world : WarningWorld Caller) (caller : Caller) (time : Int) :
    Prop :=
  ∀ other, other ≠ caller → (world.callers other).expects time = false

def EntersOrderly (world : WarningWorld Caller) : ClaimPhase → Prop
  | .started call => world.Settled ∧ world.Unalternated call
  | _ => True

def ExchangesOrderly (world : WarningWorld Caller) (caller : Caller) :
    ClaimPhase → Prop
  | .exchanging call last _ =>
      world.lastWarnUs = last → world.Unexpected caller call.now
  | _ => True

/-- What the schedule and the reasons of the calls have to keep to. -/
def Orderly (world : WarningWorld Caller) : WarningAction Caller → Prop
  | .loadTime caller => world.EntersOrderly (world.callers caller)
  | .exchange caller => world.ExchangesOrderly caller (world.callers caller)
  | _ => True

section Decide

variable [Fintype Caller] [DecidableEq Caller] (world : WarningWorld Caller)

instance : Decidable world.Settled :=
  inferInstanceAs (Decidable (∀ _, _ = _))

instance (call : WarningCall) : Decidable (world.Unalternated call) :=
  inferInstanceAs (Decidable (∀ earlier ∈ world.beforeOther _, _ → _))

instance (caller : Caller) (time : Int) :
    Decidable (world.Unexpected caller time) :=
  inferInstanceAs (Decidable (∀ _, _ → _))

instance : ∀ phase, Decidable (world.EntersOrderly phase)
  | .started _ => inferInstanceAs (Decidable (_ ∧ _))
  | .idle => .isTrue trivial
  | .loadedTime _ _ => .isTrue trivial
  | .exchanging _ _ _ => .isTrue trivial
  | .storing _ => .isTrue trivial

instance (caller : Caller) :
    ∀ phase, Decidable (world.ExchangesOrderly caller phase)
  | .exchanging call last _ =>
      inferInstanceAs
        (Decidable (world.lastWarnUs = last → world.Unexpected caller call.now))
  | .idle => .isTrue trivial
  | .started _ => .isTrue trivial
  | .loadedTime _ _ => .isTrue trivial
  | .storing _ => .isTrue trivial

instance : ∀ action, Decidable (world.Orderly action)
  | .loadTime caller =>
      inferInstanceAs (Decidable (world.EntersOrderly (world.callers caller)))
  | .exchange caller =>
      inferInstanceAs
        (Decidable (world.ExchangesOrderly caller (world.callers caller)))
  | .call _ _ _ => .isTrue trivial
  | .loadReason _ => .isTrue trivial
  | .storeReason _ => .isTrue trivial

end Decide

end WarningWorld

/-! ## Runs -/

theorem WarningCall.Apart.symm {first second : WarningCall}
    (apart : first.Apart second) : second.Apart first :=
  Or.symm apart

theorem Spaced.cons {calls : List WarningCall} (spaced : Spaced calls)
    {call : WarningCall}
    (apart : ∀ earlier ∈ calls, earlier.reason = call.reason →
      earlier.Apart call) : Spaced (call :: calls) := by
  intro first isFirst second isSecond different sameReason
  rcases List.mem_cons.mp isFirst with rfl | oldFirst
  · rcases List.mem_cons.mp isSecond with rfl | oldSecond
    · exact absurd rfl different
    · exact (apart second oldSecond sameReason.symm).symm
  · rcases List.mem_cons.mp isSecond with rfl | oldSecond
    · exact apart first oldFirst sameReason
    · exact spaced first oldFirst second oldSecond different sameReason

theorem WarningCall.le_of_not_suppressed {call : WarningCall} {last : Int}
    (passed : call.suppressed last call.reason = false) (warned : last ≠ 0) :
    last + warnIntervalUs ≤ call.now := by
  simp only [suppressed, beq_self_eq_true, Bool.true_and,
    Bool.and_eq_false_imp, bne_iff_ne, decide_eq_false_iff_not] at passed
  have late := passed warned
  rw [saturatingSub, warnIntervalUs] at late
  rw [warnIntervalUs]
  omega

namespace WarningWorld

variable {Caller : Type u}

def Superseded (world : WarningWorld Caller) (call : WarningCall) : Prop :=
  call ∈ world.beforeOther call.reason

def Shows (world : WarningWorld Caller) (reason : UInt32) : Prop :=
  (world.Settled → world.lastWarnReason = reason) ∧
    ∀ caller call, world.callers caller = .storing call → call.reason = reason

def Tells (world : WarningWorld Caller) (call earlier : WarningCall) : Prop :=
  world.Superseded earlier ∧
      (earlier.reason = call.reason → earlier.Apart call) ∨
    earlier.reason = call.reason ∧ earlier.now ≤ world.lastWarnUs ∧
      world.lastWarnReason = call.reason

structure Cleared (world : WarningWorld Caller) (call : WarningCall) :
    Prop where
  settled : world.Settled
  tells : ∀ earlier ∈ world.exchanged, world.Tells call earlier

/-- What holds of a caller's phase. Once the time has changed, a call that
loaded the old one cannot win. -/
def Stands (world : WarningWorld Caller) : ClaimPhase → Prop
  | .idle => True
  | .started call => call.now ≠ 0
  | .loadedTime call last =>
      call.now ≠ 0 ∧ call ∈ world.entered ∧
        (world.lastWarnUs = last → world.Cleared call)
  | .exchanging call last recorded =>
      call.now ≠ 0 ∧ call ∈ world.entered ∧
        call.suppressed last recorded = false ∧
        (world.lastWarnUs = last →
          world.Cleared call ∧ world.lastWarnReason = recorded)
  | .storing call => call ∈ world.exchanged

structure Limited (world : WarningWorld Caller) : Prop where
  spaced : Spaced world.exchanged
  unwarned : world.lastWarnUs = 0 → world.exchanged = []
  entered : ∀ call ∈ world.exchanged, call ∈ world.entered
  remembered : ∀ call ∈ world.exchanged, world.Superseded call ∨
    call.now ≤ world.lastWarnUs ∧ world.Shows call.reason
  stands : ∀ caller, world.Stands (world.callers caller)
  won : ∀ call ∈ world.warned, call ∈ world.exchanged

theorem limited_start (clock : Int) :
    (start clock : WarningWorld Caller).Limited where
  spaced _ member := by cases member
  unwarned _ := rfl
  entered _ member := by cases member
  remembered _ member := by cases member
  stands _ := trivial
  won _ member := by cases member

variable {world next : WarningWorld Caller}

theorem Superseded.enter {earlier : WarningCall}
    (superseded : world.Superseded earlier)
    (entered : earlier ∈ world.entered) (call : WarningCall) :
    (world.enter call).Superseded earlier := by
  rw [Superseded, beforeOther, WarningWorld.enter, List.dropWhile_cons]
  split
  · exact superseded
  · exact List.mem_cons_of_mem call entered

theorem superseded_of_ne {call earlier : WarningCall}
    (entered : earlier ∈ world.entered)
    (other : earlier.reason ≠ call.reason) :
    (world.enter call).Superseded earlier := by
  have differs : (call.reason == earlier.reason) = false :=
    beq_false_of_ne (Ne.symm other)
  rw [Superseded, beforeOther, WarningWorld.enter,
    List.dropWhile_cons_of_neg (by simp [differs])]
  exact List.mem_cons_of_mem call entered

theorem Stands.transfer {phase : ClaimPhase} (stands : world.Stands phase)
    (time : next.lastWarnUs = world.lastWarnUs)
    (reason : next.lastWarnReason = world.lastWarnReason)
    (exchanged : next.exchanged = world.exchanged)
    (entered : ∀ call ∈ world.entered, call ∈ next.entered)
    (superseded : ∀ call ∈ world.exchanged, world.Superseded call →
      next.Superseded call)
    (settled : world.Settled → next.Settled) : next.Stands phase := by
  have cleared : ∀ {call}, world.Cleared call → next.Cleared call := by
    intro call clear
    refine ⟨settled clear.settled, ?_⟩
    intro earlier member
    rw [exchanged] at member
    rw [Tells, time, reason]
    exact (clear.tells earlier member).imp
      (And.imp_left (superseded earlier member)) id
  cases phase with
  | idle => trivial
  | started call => exact stands
  | loadedTime call last =>
      rcases stands with ⟨nonzero, came, current⟩
      refine ⟨nonzero, entered call came, ?_⟩
      rw [time]
      exact fun same => cleared (current same)
  | exchanging call last recorded =>
      rcases stands with ⟨nonzero, came, passed, current⟩
      refine ⟨nonzero, entered call came, passed, ?_⟩
      rw [time, reason]
      exact fun same => ⟨cleared (current same).1, (current same).2⟩
  | storing call =>
      rw [Stands, exchanged]
      exact stands

theorem Stands.settled {phase : ClaimPhase} (stands : world.Stands phase)
    (current : phase.expects world.lastWarnUs = true) : world.Settled := by
  cases phase with
  | loadedTime call last =>
      exact (stands.2.2 (beq_iff_eq.mp current).symm).settled
  | exchanging call last recorded =>
      exact (stands.2.2.2 (beq_iff_eq.mp current).symm).1.settled
  | _ => cases current

theorem Stands.stale {phase : ClaimPhase} (stands : world.Stands phase)
    (entered : next.entered = world.entered)
    (exchanged : ∀ call ∈ world.exchanged, call ∈ next.exchanged)
    (stale : phase.expects next.lastWarnUs = false) : next.Stands phase := by
  cases phase with
  | idle => trivial
  | started call => exact stands
  | loadedTime call last =>
      rw [Stands, entered]
      exact ⟨stands.1, stands.2.1, fun same =>
        absurd same.symm (beq_eq_false_iff_ne.mp stale)⟩
  | exchanging call last recorded =>
      rw [Stands, entered]
      exact ⟨stands.1, stands.2.1, stands.2.2.1, fun same =>
        absurd same.symm (beq_eq_false_iff_ne.mp stale)⟩
  | storing call => exact exchanged call stands

/-! ### The loads and the test -/

theorem Limited.enter (limited : world.Limited) (call : WarningCall) :
    (world.enter call).Limited where
  spaced := limited.spaced
  unwarned := limited.unwarned
  entered earlier member :=
    List.mem_cons_of_mem call (limited.entered earlier member)
  remembered earlier member := (limited.remembered earlier member).imp
    (fun superseded => superseded.enter (limited.entered earlier member) call)
    id
  stands caller := (limited.stands caller).transfer rfl rfl rfl
    (fun _ came => List.mem_cons_of_mem call came)
    (fun earlier member superseded =>
      superseded.enter (limited.entered earlier member) call) id
  won := limited.won

theorem Limited.cleared (limited : world.Limited) {call : WarningCall}
    (settled : world.Settled) (unalternated : world.Unalternated call) :
    (world.enter call).Cleared call := by
  refine ⟨settled, ?_⟩
  intro earlier member
  have came := limited.entered earlier member
  by_cases same : earlier.reason = call.reason
  · rcases limited.remembered earlier member with superseded | kept
    · left
      refine ⟨superseded.enter came call, fun _ => ?_⟩
      rw [Superseded, same] at superseded
      exact unalternated earlier superseded same
    · exact .inr ⟨same, kept.1, (kept.2.1 settled).trans same⟩
  · exact .inl ⟨superseded_of_ne came same, fun equal => absurd equal same⟩

theorem Limited.le_of_own (limited : world.Limited)
    {call earlier : WarningCall} (member : earlier ∈ world.exchanged)
    (passed : call.suppressed world.lastWarnUs world.lastWarnReason = false)
    (own : world.lastWarnReason = call.reason) :
    world.lastWarnUs + warnIntervalUs ≤ call.now := by
  have warned : world.lastWarnUs ≠ 0 := by
    intro zero
    rw [limited.unwarned zero] at member
    cases member
  rw [own] at passed
  exact WarningCall.le_of_not_suppressed passed warned

theorem Limited.apart (limited : world.Limited) {call : WarningCall}
    (passed : call.suppressed world.lastWarnUs world.lastWarnReason = false)
    (cleared : world.Cleared call) :
    ∀ earlier ∈ world.exchanged, earlier.reason = call.reason →
      earlier.Apart call := by
  intro earlier member sameReason
  rcases cleared.tells earlier member with ⟨_, apart⟩ | ⟨_, older, own⟩
  · exact apart sameReason
  · have late := limited.le_of_own member passed own
    left
    omega

variable [DecidableEq Caller]

/-! ### One caller moves on -/

@[simp] theorem callers_withPhase_self (world : WarningWorld Caller)
    (caller : Caller) (phase : ClaimPhase) :
    (world.withPhase caller phase).callers caller = phase := by
  rw [withPhase]
  exact Function.update_self ..

theorem callers_withPhase_of_ne {caller other : Caller} (here : other ≠ caller)
    (world : WarningWorld Caller) (phase : ClaimPhase) :
    (world.withPhase caller phase).callers other = world.callers other := by
  rw [withPhase]
  exact Function.update_of_ne here ..

theorem settled_withPhase {caller : Caller} {phase : ClaimPhase}
    (before : (world.callers caller).isStoring = false)
    (quiet : phase.isStoring = false) :
    (world.withPhase caller phase).Settled ↔ world.Settled := by
  apply forall_congr'
  intro other
  by_cases here : other = caller
  · rw [here, callers_withPhase_self, before, quiet]
  · rw [callers_withPhase_of_ne here]

theorem Shows.withPhase {caller : Caller} {phase : ClaimPhase}
    {reason : UInt32} (shows : world.Shows reason)
    (before : (world.callers caller).isStoring = false)
    (quiet : phase.isStoring = false) :
    (world.withPhase caller phase).Shows reason := by
  constructor
  · intro settled
    exact shows.1 ((settled_withPhase before quiet).mp settled)
  · intro other call storing
    by_cases here : other = caller
    · rw [here, callers_withPhase_self] at storing
      rw [storing] at quiet
      cases quiet
    · rw [callers_withPhase_of_ne here] at storing
      exact shows.2 other call storing

theorem Limited.withPhase (limited : world.Limited) (caller : Caller)
    {phase : ClaimPhase} (before : (world.callers caller).isStoring = false)
    (quiet : phase.isStoring = false) (moved : world.Stands phase) :
    (world.withPhase caller phase).Limited where
  spaced := limited.spaced
  unwarned := limited.unwarned
  entered := limited.entered
  remembered call member := (limited.remembered call member).imp id
    fun kept => ⟨kept.1, kept.2.withPhase before quiet⟩
  stands other := by
    have stands : world.Stands
        ((world.withPhase caller phase).callers other) := by
      by_cases here : other = caller
      · rw [here, callers_withPhase_self]
        exact moved
      · rw [callers_withPhase_of_ne here]
        exact limited.stands other
    exact stands.transfer rfl rfl rfl (fun _ came => came)
      (fun _ _ superseded => superseded)
      (settled_withPhase before quiet).mpr
  won := limited.won

/-! ### The exchange and the store -/

theorem shows_win {caller : Caller} {call : WarningCall}
    (settled : world.Settled) : (world.win caller call).Shows call.reason := by
  constructor
  · intro quiet
    have storing := quiet caller
    rw [win, callers_withPhase_self] at storing
    cases storing
  · intro other stored storing
    by_cases here : other = caller
    · rw [here, win, callers_withPhase_self, ClaimPhase.storing.injEq]
        at storing
      rw [storing]
    · have quiet := settled other
      rw [win, callers_withPhase_of_ne here] at storing
      rw [storing] at quiet
      cases quiet

theorem Limited.win (limited : world.Limited) {caller : Caller}
    {call : WarningCall} {recorded : UInt32}
    (standing : world.callers caller =
      .exchanging call world.lastWarnUs recorded)
    (unexpected : world.Unexpected caller call.now) :
    (world.win caller call).Limited := by
  have stands := limited.stands caller
  rw [standing] at stands
  rcases stands with ⟨nonzero, came, passed, current⟩
  rcases current rfl with ⟨cleared, rfl⟩
  have apart := limited.apart passed cleared
  exact {
    spaced := limited.spaced.cons apart
    unwarned := fun zero => absurd zero nonzero
    entered := by
      intro winner member
      rcases List.mem_cons.mp member with rfl | earlier
      · exact came
      · exact limited.entered winner earlier
    remembered := by
      intro winner member
      have shows := @shows_win _ world _ caller call cleared.settled
      rcases List.mem_cons.mp member with rfl | earlier
      · exact .inr ⟨le_refl _, shows⟩
      · rcases cleared.tells winner earlier with told | ⟨same, older, own⟩
        · exact .inl told.1
        · have late := limited.le_of_own earlier passed own
          have interval : 0 ≤ warnIntervalUs := by decide
          have noLater : winner.now ≤ call.now := by omega
          rw [same]
          exact .inr ⟨noLater, shows⟩
    stands := by
      intro other
      by_cases here : other = caller
      · rw [here, WarningWorld.win, callers_withPhase_self]
        exact List.mem_cons_self
      · rw [WarningWorld.win, callers_withPhase_of_ne here]
        exact (limited.stands other).stale rfl
          (fun winner => List.mem_cons_of_mem call) (unexpected other here)
    won := fun warned member =>
      List.mem_cons_of_mem call (limited.won warned member) }

theorem shows_store {caller : Caller} {call : WarningCall} {reason : UInt32}
    (shows : world.Shows reason)
    (standing : world.callers caller = .storing call) :
    (world.store caller call).Shows reason := by
  refine ⟨fun _ => shows.2 caller call standing, ?_⟩
  intro other stored storing
  by_cases here : other = caller
  · rw [here, store, callers_withPhase_self] at storing
    cases storing
  · rw [store, callers_withPhase_of_ne here] at storing
    exact shows.2 other stored storing

theorem Limited.store (limited : world.Limited) {caller : Caller}
    {call : WarningCall} (standing : world.callers caller = .storing call) :
    (world.store caller call).Limited where
  spaced := limited.spaced
  unwarned := limited.unwarned
  entered := limited.entered
  remembered winner member := (limited.remembered winner member).imp id
    fun kept => ⟨kept.1, shows_store kept.2 standing⟩
  stands other := by
    by_cases here : other = caller
    · rw [here, WarningWorld.store, callers_withPhase_self]
      trivial
    · -- a call that had loaded the present time could still win, and then
      -- nobody would be storing
      have stale : (world.callers other).expects world.lastWarnUs = false := by
        by_contra current
        have settled := (limited.stands other).settled
          (Bool.eq_true_of_not_eq_false current) caller
        rw [standing] at settled
        cases settled
      rw [WarningWorld.store, callers_withPhase_of_ne here]
      exact (limited.stands other).stale rfl (fun _ member => member) stale
  won := by
    intro warned member
    rcases List.mem_cons.mp member with rfl | earlier
    · have stands := limited.stands caller
      rw [standing] at stands
      exact stands
    · exact limited.won warned earlier

/-! ### Every step -/

theorem step_limited {action : WarningAction Caller} (limited : world.Limited)
    (orderly : world.Orderly action)
    (stepped : machine.step world action = some next) : next.Limited := by
  cases action with
  | call caller now reason =>
      cases standing : world.callers caller with
      | idle =>
          simp only [machine, standing, Option.ite_none_right_eq_some,
            Option.some.injEq] at stepped
          rcases stepped with ⟨⟨nonzero, _⟩, rfl⟩
          have moved := @Limited.withPhase _ _ _ limited caller
            (.started ⟨world.calls, now, reason⟩) (by rw [standing]; rfl) rfl
            nonzero
          exact ⟨moved.spaced, moved.unwarned, moved.entered, moved.remembered,
            fun other => (moved.stands other).transfer rfl rfl rfl
              (fun _ came => came) (fun _ _ superseded => superseded) id,
            moved.won⟩
      | _ => simp [machine, standing] at stepped
  | loadTime caller =>
      have stands := limited.stands caller
      cases standing : world.callers caller with
      | started call =>
          rw [standing] at stands
          rw [Orderly, standing] at orderly
          rcases orderly with ⟨settled, unalternated⟩
          have cleared := limited.cleared settled unalternated
          simp only [machine, standing, Option.some.injEq] at stepped
          subst stepped
          exact (limited.enter call).withPhase caller (settled caller) rfl
            ⟨stands, List.mem_cons_self, fun _ => cleared⟩
      | _ => simp [machine, standing] at stepped
  | loadReason caller =>
      have stands := limited.stands caller
      cases standing : world.callers caller with
      | loadedTime call last =>
          rw [standing] at stands
          simp only [machine, standing, Option.some.injEq] at stepped
          subst stepped
          have before : (world.callers caller).isStoring = false := by
            rw [standing]
            rfl
          split
          · exact limited.withPhase caller before rfl trivial
          · next passed =>
              rcases stands with ⟨nonzero, came, current⟩
              exact limited.withPhase caller before rfl
                ⟨nonzero, came, Bool.eq_false_of_not_eq_true passed,
                  fun same => ⟨current same, rfl⟩⟩
      | _ => simp [machine, standing] at stepped
  | exchange caller =>
      cases standing : world.callers caller with
      | exchanging call last recorded =>
          rw [Orderly, standing] at orderly
          simp only [machine, standing, Option.some.injEq] at stepped
          subst stepped
          rw [exchange]
          split
          · next current =>
              have unexpected := orderly current
              subst current
              exact limited.win standing unexpected
          · exact limited.withPhase caller (by rw [standing]; rfl) rfl trivial
      | _ => simp [machine, standing] at stepped
  | storeReason caller =>
      cases standing : world.callers caller with
      | storing call =>
          simp only [machine, standing, Option.some.injEq] at stepped
          subst stepped
          exact limited.store standing
      | _ => simp [machine, standing] at stepped

/-- Warnings are rate limited in every orderly run. -/
theorem run_rateLimited {clock : Int} {actions : List (WarningAction Caller)}
    (orderly : machine.EveryStep Orderly (start clock) actions)
    (completed : machine.run (start clock) actions = some world) :
    world.RateLimited := by
  have limited := Machine.run_invariant_of_everyStep step_limited
    (limited_start clock) orderly completed
  intro first isFirst second isSecond
  exact limited.spaced first (limited.won first isFirst) second
    (limited.won second isSecond)

/-- One call from its clock reading to its return with `true`. -/
def wholeCall (caller : Caller) (now : Int) (reason : PausedReason) :
    List (WarningAction Caller) :=
  [.call caller now (rawReason reason), .loadTime caller, .loadReason caller,
    .exchange caller, .storeReason caller]

/-- Two callers load the same words, and one of them loses the exchange. The
next is held back by the winner, another reason is not, and after the interval
the first one is reported again. -/
def contention : List (WarningAction Bool) :=
  [.call false 1 0, .call true 2 0, .loadTime false, .loadTime true,
      .loadReason true, .loadReason false, .exchange true, .exchange false,
      .storeReason true, .call false 3 0, .loadTime false, .loadReason false] ++
    wholeCall true 4 .queueCorrupt ++ wholeCall false 60000003 .workerNotRunning

theorem contention_rateLimited :
    ∃ world, machine.run (start 0) contention = some world ∧
      world.entered.length = 5 ∧ world.warned.length = 3 ∧
      world.RateLimited := by
  have summary : (machine.run (start 0) contention).map
      (fun world => (world.entered.length, world.warned.length)) =
        some (5, 3) := by decide
  rcases Option.map_eq_some_iff.mp summary with ⟨world, completed, counted⟩
  rw [Prod.mk.injEq] at counted
  exact ⟨world, completed, counted.1, counted.2,
    run_rateLimited (by decide) completed⟩

/-- A reason, another one, and the first again within the interval. -/
def fastAlternation : List (WarningAction Unit) :=
  wholeCall () 1 .workerNotRunning ++ wholeCall () 2 .queueCorrupt ++
    wholeCall () 3 .workerNotRunning

theorem fastAlternation_not_rateLimited :
    ∃ world, machine.run (start 0) fastAlternation = some world ∧
      ¬world.RateLimited := by
  have summary : (machine.run (start 0) fastAlternation).map
      (fun world => decide (Spaced world.warned)) = some false := by
    decide
  rcases Option.map_eq_some_iff.mp summary with ⟨world, completed, crowded⟩
  have notSpaced : ¬Spaced world.warned := of_decide_eq_false crowded
  exact ⟨world, completed, notSpaced⟩

end WarningWorld

end PasswordProfile.Worker
