import PasswordProfile.Foundation.Execution
import PasswordProfile.Foundation.Selection
import PasswordProfile.Lockout.Cache

/-! # The lock cache as a map of the last decisions

Whatever the order of the operations, the search finds for every user what the
last operation concerning that user gave it, as long as nothing was refused. The
exception is a decision that has already expired when it is applied: the cache
ignores it and keeps the older lockout.
-/

namespace PasswordProfile.Lockout

open Execution SlotTable

/-! ## What the operations do to the active lockouts -/

namespace LockCache

/-- What is active at `now` is the same in both caches, except for
`username`. -/
def SameOthers (username : EncodedUsername) (now : TimestampTz)
    (before after : LockCache) : Prop :=
  ∀ other, other ≠ username → ∀ expiresAt, now < expiresAt →
    (after.held other = some expiresAt ↔ before.held other = some expiresAt)

theorem held_init (username : EncodedUsername) : init.held username = none := by
  rw [held, Option.map_eq_none_iff]
  apply contents_eq_none_iff.mpr
  intro slot owned
  rw [init, LockEntry.owner_new] at owned
  cases owned

theorem set_refused {cache : LockCache} {username : EncodedUsername}
    {expiresAt now : TimestampTz}
    (refused : (cache.set username expiresAt now).2 = .overflowed) :
    (cache.set username expiresAt now).1.entries = cache.entries := by
  by_cases refuses : cache.Refuses username expiresAt now
  · rw [set_of_refuses refuses]
  · rw [(set_of_not_refuses refuses).1] at refused
    cases refused

theorem set_expired (cache : LockCache) (username : EncodedUsername)
    {expiresAt now : TimestampTz} (expired : expiresAt ≤ now) :
    cache.set username expiresAt now = (cache, .applied) := if_pos expired

theorem WellFormed.set_accepted {cache : LockCache}
    (wellFormed : cache.WellFormed) {username : EncodedUsername}
    (used : username.isFree = false) {expiresAt now : TimestampTz}
    (future : now < expiresAt)
    (accepted : (cache.set username expiresAt now).2 = .applied) :
    (cache.set username expiresAt now).1.held username = some expiresAt ∧
      SameOthers username now cache (cache.set username expiresAt now).1 := by
  have notExpired := not_le.mpr future
  rw [set] at accepted ⊢
  simp only [notExpired, used, if_false, Bool.false_eq_true] at accepted ⊢
  cases placed : place LockEntry.owner (reusable now) cache.entries username
      ⟨username, expiresAt⟩ with
  | none =>
      rw [placed] at accepted
      cases accepted
  | some entries =>
      rcases place_spec wellFormed (LockEntry.owner_mk used expiresAt)
        placed with ⟨_, here, others⟩
      refine ⟨held_eq_some_iff.mpr here,
        fun other different expiry active => ?_⟩
      rw [held_eq_some_iff, held_eq_some_iff]
      rcases others other different with same | ⟨gone, old, lost, spare⟩
      · exact Eq.congr_left same
      · have otherUsed : old.username.isFree = false := by
          rcases wellFormed.contents_eq_some_iff.mp lost with ⟨_, _, owned⟩
          exact (LockEntry.owner_eq_some_iff.mp owned).1
        have ended : old.expiresAt ≤ now := by
          simpa [reusable, otherUsed] using spare
        constructor
        · intro found
          rw [show contents LockEntry.owner entries other = none from gone]
            at found
          cases found
        · intro found
          rw [lost, Option.some.injEq] at found
          subst found
          exact absurd active (not_lt.mpr ended)

theorem WellFormed.clear_exact {cache : LockCache}
    (wellFormed : cache.WellFormed) (username : EncodedUsername)
    (now : TimestampTz) :
    (cache.clear username).1.held username = none ∧
      SameOthers username now cache (cache.clear username).1 := by
  rcases @release_spec _ _ _ _ _ cache.entries username .new wellFormed
    LockEntry.owner_new with ⟨_, gone, others⟩
  refine ⟨?_, fun other different expiresAt _ => ?_⟩
  · rw [held]
    exact Option.map_eq_none_iff.mpr gone
  · rw [held_eq_some_iff, held_eq_some_iff]
    exact Eq.congr_left (others other different)

end LockCache

/-! ## Runs of the operations -/

/-- The entries that a hydration prepares: of different users, and no more
than its `LIMIT`. -/
structure PreparedEntries where
  entries : List LockEntry
  distinct : (entries.map LockEntry.username).Nodup
  named : ∀ entry ∈ entries, entry.username.isFree = false
  fits : entries.length ≤ lockCacheSize

def PreparedEntries.expiryOf (prepared : PreparedEntries)
    (username : EncodedUsername) : Option TimestampTz :=
  (prepared.entries.find? (·.username == username)).map LockEntry.expiresAt

inductive CacheOperation
  | set (username : EncodedUsername) (expiresAt : TimestampTz)
  | clear (username : EncodedUsername)
  | applyHydratedEntries (prepared : PreparedEntries)
      (activeTotal overflow : Int) (newState : CacheState)

/-- An operation and the clock reading at which it runs. -/
structure TimedOperation where
  operation : CacheOperation
  now : TimestampTz

/-- The cache beside what it shall stand for: the last decision about every
user, and whether one was refused since the last hydration. -/
structure DecisionLog where
  cache : LockCache
  clock : TimestampTz
  last : EncodedUsername → Option TimestampTz
  refused : Bool

namespace DecisionLog

def init (clock : TimestampTz) : DecisionLog where
  cache := .init
  clock
  last := fun _ => none
  refused := false

def perform (log : DecisionLog) (now : TimestampTz) :
    CacheOperation → Option DecisionLog
  | .set username expiresAt =>
      if username.isFree then none
      else
        let (cache, status) := log.cache.set username expiresAt now
        some
          { cache
            clock := now
            last := Function.update log.last username (some expiresAt)
            refused := log.refused || status == .overflowed }
  | .clear username =>
      if username.isFree then none
      else
        some { log with
          cache := (log.cache.clear username).1
          clock := now
          last := Function.update log.last username none }
  | .applyHydratedEntries prepared activeTotal overflow newState =>
      some
        { cache := (log.cache.applyHydratedEntries prepared.entries activeTotal
            overflow newState now).1
          clock := now
          last := prepared.expiryOf
          refused := false }

end DecisionLog

def lockCacheRuns : Machine DecisionLog TimedOperation where
  step log timed :=
    if timed.now < log.clock then none
    else log.perform timed.now timed.operation

/-- The cache is the map of the last decisions. -/
structure IsLastDecisionMap (log : DecisionLog) : Prop where
  distinct : ∀ first second,
    (log.cache.entries first).username.isFree = false →
    (log.cache.entries first).username = (log.cache.entries second).username →
    first = second
  refusedKeeps : ∀ username expiresAt now,
    (log.cache.set username expiresAt now).2 = .overflowed →
      (log.cache.set username expiresAt now).1.entries = log.cache.entries
  setKeepsOthers : ∀ username expiresAt now,
    LockCache.KeepsOthers username now log.cache
      (log.cache.set username expiresAt now).1
  clearKeepsOthers : ∀ username now,
    LockCache.KeepsOthers username now log.cache (log.cache.clear username).1
  lookup : log.refused = false → ∀ username, username.isFree = false →
    ∀ now, log.clock ≤ now → ∀ expiresAt,
      log.cache.findActive username now = some expiresAt ↔
        log.last username = some expiresAt ∧ now < expiresAt

/-- A decision that is over when it is applied finds no active lockout of its
user. -/
def ReplacesNoLockout (log : DecisionLog) (timed : TimedOperation) : Prop :=
  match timed.operation with
  | .set username expiresAt =>
      expiresAt ≤ timed.now →
        log.cache.findActive username timed.now = none
  | _ => True

instance (log : DecisionLog) (timed : TimedOperation) :
    Decidable (ReplacesNoLockout log timed) :=
  match timed with
  | ⟨.set username expiresAt, now⟩ =>
      inferInstanceAs (Decidable (expiresAt ≤ now →
        log.cache.findActive username now = none))
  | ⟨.clear _, _⟩ => .isTrue trivial
  | ⟨.applyHydratedEntries .., _⟩ => .isTrue trivial

/-! ## The invariant -/

structure DecisionLog.Follows (log : DecisionLog) : Prop where
  wellFormed : log.cache.WellFormed
  agrees : log.refused = false → ∀ username, username.isFree = false →
    ∀ expiresAt, log.clock < expiresAt →
      (log.cache.held username = some expiresAt ↔
        log.last username = some expiresAt)

namespace DecisionLog

theorem follows_init (clock : TimestampTz) : (init clock).Follows := by
  refine ⟨LockCache.wellFormed_init, fun _ username _ expiresAt _ => ?_⟩
  change LockCache.init.held username = some expiresAt ↔ none = some expiresAt
  rw [LockCache.held_init]

theorem Follows.write {log : DecisionLog} (follows : log.Follows)
    {cache : LockCache} {username : EncodedUsername} {now : TimestampTz}
    {decision : Option TimestampTz} {refused : Bool}
    (wellFormed : cache.WellFormed) (later : log.clock ≤ now)
    (others : LockCache.SameOthers username now log.cache cache)
    (here : ∀ expiresAt, now < expiresAt →
      (cache.held username = some expiresAt ↔ decision = some expiresAt))
    (sameRefused : refused = false → log.refused = false) :
    Follows ⟨cache, now, Function.update log.last username decision,
      refused⟩ := by
  refine ⟨wellFormed, fun accepted other used expiresAt active => ?_⟩
  change cache.held other = some expiresAt ↔
    Function.update log.last username decision other = some expiresAt
  by_cases same : other = username
  · subst same
    rw [Function.update_self]
    exact here expiresAt active
  · rw [Function.update_of_ne same, others other same expiresAt active]
    exact follows.agrees (sameRefused accepted) other used expiresAt
      (lt_of_le_of_lt later active)

theorem Follows.isLastDecisionMap {log : DecisionLog}
    (follows : log.Follows) : IsLastDecisionMap log where
  distinct first second used same := by
    have owns := LockEntry.owner_eq_some_iff.mpr ⟨used, rfl⟩
    have alsoOwns := LockEntry.owner_eq_some_iff.mpr ⟨same ▸ used, same.symm⟩
    exact follows.wellFormed first second _ owns alsoOwns
  refusedKeeps _ _ _ refused := LockCache.set_refused refused
  setKeepsOthers username expiresAt now :=
    (follows.wellFormed.set_result username expiresAt now).keepsOthers
  clearKeepsOthers username now :=
    (follows.wellFormed.clear_result username now).2
  lookup accepted username used now since expiresAt := by
    rw [follows.wellFormed.findActive_eq_some_iff]
    apply and_congr_left
    intro active
    exact follows.agrees accepted username used expiresAt
      (lt_of_le_of_lt since active)

end DecisionLog

theorem PreparedEntries.expiryOf_eq_some_iff (prepared : PreparedEntries)
    {username : EncodedUsername} {expiresAt : TimestampTz} :
    prepared.expiryOf username = some expiresAt ↔
      ⟨username, expiresAt⟩ ∈ prepared.entries := by
  rw [expiryOf, Option.map_eq_some_iff]
  simp only [Selection.find?_key_eq_some_iff prepared.distinct]
  constructor
  · intro given
    rcases given with ⟨entry, ⟨member, rfl⟩, rfl⟩
    exact member
  · intro member
    exact ⟨_, ⟨member, rfl⟩, rfl⟩

namespace DecisionLog

variable {log next : DecisionLog} {now : TimestampTz}

theorem Follows.set (follows : log.Follows) (later : log.clock ≤ now)
    {username : EncodedUsername} {expiresAt : TimestampTz}
    (replaces : expiresAt ≤ now → log.cache.findActive username now = none)
    (performed : log.perform now (.set username expiresAt) = some next) :
    next.Follows := by
  simp only [perform, Option.ite_none_left_eq_some,
    Option.some.injEq] at performed
  rcases performed with ⟨named, rfl⟩
  have used := Bool.eq_false_of_not_eq_true named
  have result := follows.wellFormed.set_result username expiresAt now
  by_cases future : now < expiresAt
  · cases status : (log.cache.set username expiresAt now).2 with
    | overflowed =>
        refine ⟨result.wellFormed, fun accepted => ?_⟩
        simp at accepted
    | applied =>
        rcases follows.wellFormed.set_accepted used future status with
          ⟨held, others⟩
        apply follows.write result.wellFormed later others
        · intro expiry _
          rw [held]
        · simp
  · have expired := not_lt.mp future
    have kept := log.cache.set_expired username expired
    rw [kept] at result ⊢
    apply follows.write result.wellFormed later
      (fun _ _ _ _ => Iff.rfl)
    · intro expiry active
      apply iff_of_false
      · intro held
        have found := follows.wellFormed.findActive_eq_some_iff.mpr
          ⟨held, active⟩
        rw [replaces expired] at found
        cases found
      · intro same
        cases same
        exact absurd active (not_lt.mpr expired)
    · simp

theorem Follows.clear (follows : log.Follows) (later : log.clock ≤ now)
    {username : EncodedUsername}
    (performed : log.perform now (.clear username) = some next) :
    next.Follows := by
  simp only [perform, Option.ite_none_left_eq_some,
    Option.some.injEq] at performed
  rcases performed with ⟨named, rfl⟩
  rcases follows.wellFormed.clear_exact username now with ⟨gone, others⟩
  apply follows.write (follows.wellFormed.clear_result username now).1 later
    others
  · intro expiry _
    rw [gone]
  · exact fun accepted => accepted

theorem Follows.hydrate {prepared : PreparedEntries}
    {activeTotal overflow : Int} {newState : CacheState}
    (performed : log.perform now (.applyHydratedEntries prepared activeTotal
      overflow newState) = some next) : next.Follows := by
  simp only [perform, Option.some.injEq] at performed
  subst performed
  rcases log.cache.applyHydratedEntries_spec activeTotal overflow newState now
    prepared.distinct prepared.fits with ⟨wellFormed, held⟩
  refine ⟨wellFormed, fun _ username used expiresAt active => ?_⟩
  apply (held username expiresAt).trans
  rw [prepared.expiryOf_eq_some_iff]
  exact ⟨fun given => given.1, fun member => ⟨member, used, active⟩⟩

theorem Follows.step {timed : TimedOperation} (follows : log.Follows)
    (replaces : ReplacesNoLockout log timed)
    (stepped : lockCacheRuns.step log timed = some next) : next.Follows := by
  rcases timed with ⟨operation, now⟩
  simp only [lockCacheRuns, Option.ite_none_left_eq_some, not_lt] at stepped
  rcases stepped with ⟨later, performed⟩
  cases operation with
  | set username expiresAt => exact follows.set later replaces performed
  | clear username => exact follows.clear later performed
  | applyHydratedEntries prepared activeTotal overflow newState =>
      exact hydrate performed

end DecisionLog

/-- In every run in which no expired decision meets an active lockout of its
user, the cache is the map of the last decisions. -/
theorem lockCache_isLastDecisionMap {operations : List TimedOperation}
    {clock : TimestampTz} {log : DecisionLog}
    (replaces : lockCacheRuns.EveryStep ReplacesNoLockout
      (DecisionLog.init clock) operations)
    (completed : lockCacheRuns.run (DecisionLog.init clock) operations =
      some log) : IsLastDecisionMap log := by
  have follows := Machine.run_invariant_of_everyStep
    (fun follows replaces stepped =>
      DecisionLog.Follows.step follows replaces stepped)
    (DecisionLog.follows_init clock) replaces completed
  exact follows.isLastDecisionMap

/-- A hydration with `bob`, and a lockout of `alice` after it. -/
theorem lockCache_isLastDecisionMap_alice :
    ∃ log, lockCacheRuns.run (DecisionLog.init 0)
        [⟨.applyHydratedEntries ⟨[⟨encodeUsername "bob", 300⟩],
            List.nodup_singleton _, by simpa using by decide,
            by decide +kernel⟩ 1 0 .ready, 1⟩,
          ⟨.set (encodeUsername "alice") 200, 2⟩] = some log ∧
      IsLastDecisionMap log ∧
      log.cache.findActive (encodeUsername "alice") 5 = some 200 ∧
      log.cache.findActive (encodeUsername "bob") 5 = some 300 := by
  have summary : (lockCacheRuns.run (DecisionLog.init 0)
      [⟨.applyHydratedEntries ⟨[⟨encodeUsername "bob", 300⟩],
          List.nodup_singleton _, by simpa using by decide,
          by decide +kernel⟩ 1 0 .ready, 1⟩,
        ⟨.set (encodeUsername "alice") 200, 2⟩]).map
        (fun log => (log.refused, log.clock,
          log.last (encodeUsername "alice"),
          log.last (encodeUsername "bob"))) =
      some (false, 2, some 200, some 300) := by decide +kernel
  rcases Option.map_eq_some_iff.mp summary with ⟨log, completed, read⟩
  have isMap := lockCache_isLastDecisionMap (by decide) completed
  have accepted : log.refused = false := congrArg (·.1) read
  have clock : log.clock = 2 := congrArg (·.2.1) read
  have since : log.clock ≤ 5 := clock ▸ by decide
  refine ⟨log, completed, isMap, ?_, ?_⟩
  · apply (isMap.lookup accepted _ (by decide) 5 since 200).mpr
    exact ⟨congrArg (·.2.2.1) read, by decide⟩
  · apply (isMap.lookup accepted _ (by decide) 5 since 300).mpr
    exact ⟨congrArg (·.2.2.2) read, by decide⟩

/-- A decision that is over when it is applied leaves the older lockout. -/
theorem lockCache_keeps_replaced_lockout :
    ∃ log, lockCacheRuns.run (DecisionLog.init 0)
        [⟨.set (encodeUsername "alice") 100, 1⟩,
          ⟨.set (encodeUsername "alice") 5, 10⟩] = some log ∧
      log.refused = false ∧ log.last (encodeUsername "alice") = some 5 ∧
      log.cache.findActive (encodeUsername "alice") 10 = some 100 := by
  have summary : (lockCacheRuns.run (DecisionLog.init 0)
      [⟨.set (encodeUsername "alice") 100, 1⟩,
        ⟨.set (encodeUsername "alice") 5, 10⟩]).map
        (fun log => (log.refused, log.last (encodeUsername "alice"),
          log.cache.findActive (encodeUsername "alice") 10)) =
      some (false, some 5, some 100) := by decide +kernel
  rcases Option.map_eq_some_iff.mp summary with ⟨log, completed, read⟩
  exact ⟨log, completed, congrArg (·.1) read, congrArg (·.2.1) read,
    congrArg (·.2.2) read⟩

end PasswordProfile.Lockout
