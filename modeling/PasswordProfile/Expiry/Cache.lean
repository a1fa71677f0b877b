import PasswordProfile.Foundation.SlotTable
import PasswordProfile.Lockout.Cache

/-! # The shared expiry cache

The cached rows of `password_expiry`, with the row's `last_changed` as the
generation of its password. Consuming a grace login and offering its event
happen in one lock section.
-/

namespace PasswordProfile.Expiry

open AuthEvent SlotTable
open Lockout (CacheOpStatus)

@[irreducible] def expiryCacheSize : Nat := 2048

structure ExpiryEntry where
  username : EncodedUsername
  mustChangeBy : TimestampTz
  generation : TimestampTz
  graceRemaining : Int
  deriving DecidableEq, Repr

def ExpiryEntry.empty : ExpiryEntry := ⟨.zero, 0, 0, 0⟩

def ExpiryEntry.owner (entry : ExpiryEntry) : Option EncodedUsername :=
  if entry.username.isFree then none else some entry.username

inductive ExpiryCacheState
  | notReady
  | ready
  | overflow
  | workerFailed
  deriving DecidableEq, Repr

namespace ExpiryCacheState

def raw : ExpiryCacheState → Int
  | notReady => 0
  | ready => 1
  | overflow => 2
  | workerFailed => 3

def fromRaw (raw : Int) : ExpiryCacheState :=
  if raw = 1 then ready
  else if raw = 2 then overflow
  else if raw = 3 then workerFailed
  else notReady

@[simp] theorem fromRaw_raw (state : ExpiryCacheState) :
    fromRaw state.raw = state := by
  cases state <;> rfl

end ExpiryCacheState

inductive ExpiryDecision
  | cacheUnavailable
  | noRow
  | notExpired
  | expiredWithGrace
  | expiredNoGrace
  deriving DecidableEq, Repr

inductive GraceOutcome
  | consumed
  | notNeeded
  | noGrace
  | unavailable
  deriving DecidableEq, Repr

structure GraceResult where
  outcome : GraceOutcome
  queueWarn : Bool
  deriving DecidableEq, Repr

/-- The arguments of the event that `try_consume_grace` offers. -/
structure GraceEvent where
  username : EncodedUsername
  flags : EventFlags
  generation : TimestampTz
  deriving DecidableEq

structure ExpiryCache where
  entries : Fin expiryCacheSize → ExpiryEntry
  /-- The raw value of an `ExpiryCacheState`. -/
  state : Int
  hydrationRows : Int
  hydrationOverflow : Int

def classify (entry : ExpiryEntry) (now : TimestampTz) : ExpiryDecision :=
  if entry.mustChangeBy > now then .notExpired
  else if entry.graceRemaining > 0 then .expiredWithGrace
  else .expiredNoGrace

def preparedEntry (username : String) (mustChangeBy generation : TimestampTz)
    (graceRemaining : Int) : ExpiryEntry where
  username := encodeUsername username
  mustChangeBy
  generation
  graceRemaining := max graceRemaining 0

namespace ExpiryCache

def init : ExpiryCache where
  entries := fun _ => .empty
  state := ExpiryCacheState.notReady.raw
  hydrationRows := 0
  hydrationOverflow := 0

def readState (cache : ExpiryCache) : ExpiryCacheState := .fromRaw cache.state

def setState (cache : ExpiryCache) (newState : ExpiryCacheState) :
    ExpiryCache :=
  { cache with state := newState.raw }

def lookup (cache : ExpiryCache) (username : String) (now : TimestampTz) :
    ExpiryDecision :=
  if cache.readState ≠ .ready then .cacheUnavailable
  else
    match contents ExpiryEntry.owner cache.entries (encodeUsername username) with
    | some entry => classify entry now
    | none => .noRow

/-- Everything `try_consume_grace` leaves behind: the cache, its result, and
the event that it offered. -/
structure GraceAttempt where
  cache : ExpiryCache
  result : GraceResult
  offered : Option GraceEvent

/-- `step` is the answer of `enqueue_encoded_silent`, in case it is asked. -/
def tryConsumeGrace (cache : ExpiryCache) (username : String)
    (now : TimestampTz) (flags : EventFlags) (step : EnqueueStep) :
    GraceAttempt :=
  let encoded := encodeUsername username
  if cache.readState ≠ .ready then ⟨cache, ⟨.unavailable, false⟩, none⟩
  else
    match slotOf ExpiryEntry.owner cache.entries encoded with
    | none => ⟨cache, ⟨.notNeeded, false⟩, none⟩
    | some slot =>
        let entry := cache.entries slot
        match classify entry now with
        | .notExpired => ⟨cache, ⟨.notNeeded, false⟩, none⟩
        | .expiredNoGrace => ⟨cache, ⟨.noGrace, false⟩, none⟩
        | .noRow => ⟨cache, ⟨.unavailable, false⟩, none⟩
        | .cacheUnavailable => ⟨cache, ⟨.unavailable, false⟩, none⟩
        | .expiredWithGrace =>
            let event : GraceEvent := ⟨encoded, flags, entry.generation⟩
            if !step.outcome.isDurable then
              ⟨cache, ⟨.unavailable, step.shouldWarn⟩, some event⟩
            else
              ⟨{ cache with
                  entries := Function.update cache.entries slot
                    { entry with graceRemaining := entry.graceRemaining - 1 } },
                ⟨.consumed, step.shouldWarn⟩, some event⟩

def setEntry (cache : ExpiryCache) (username : EncodedUsername)
    (mustChangeBy generation : TimestampTz) (graceRemaining : Int) :
    ExpiryCache × CacheOpStatus :=
  if username.isFree then (cache, .overflowed)
  else
    match place ExpiryEntry.owner (fun entry => entry.username.isFree)
        cache.entries username
        ⟨username, mustChangeBy, generation, max graceRemaining 0⟩ with
    | some entries => ({ cache with entries }, .applied)
    | none =>
        ({ cache with state := ExpiryCacheState.overflow.raw }, .overflowed)

def clearEntry (cache : ExpiryCache) (username : EncodedUsername) :
    ExpiryCache × CacheOpStatus :=
  ({ cache with
      entries := release ExpiryEntry.owner .empty cache.entries username },
    .applied)

/-- One call that `apply_all` makes on the expiry cache. -/
def applyDecision (cache : ExpiryCache)
    (entry : EncodedUsername × PendingCacheOp.ExpiryDecision) : ExpiryCache :=
  match entry.2 with
  | .none => cache
  | .set mustChangeBy generation graceRemaining =>
      (cache.setEntry entry.1 mustChangeBy generation graceRemaining).1
  | .clear => (cache.clearEntry entry.1).1

def installs (prepared : ExpiryEntry) : Bool := !prepared.username.isFree

/-- Replace the whole content; also returns how many entries were loaded. -/
def applyHydrated (cache : ExpiryCache) (prepared : List ExpiryEntry)
    (rows overflow : Int) (newState : ExpiryCacheState) : ExpiryCache × Int :=
  let (entries, loaded) := fillFrom installs prepared 0 fun _ => .empty
  ({ cache with
      entries
      hydrationRows := rows
      hydrationOverflow := overflow
      state := newState.raw },
    loaded)

end ExpiryCache

/-! ## The cache as a map -/

theorem ExpiryEntry.owner_eq_some_iff {entry : ExpiryEntry}
    {username : EncodedUsername} :
    entry.owner = some username ↔
      entry.username.isFree = false ∧ entry.username = username := by
  rw [owner]
  split <;> simp_all

theorem ExpiryEntry.owner_empty : ExpiryEntry.empty.owner = none := by decide

namespace ExpiryCache

/-- The entry that the cache holds for a user. -/
def held (cache : ExpiryCache) (username : EncodedUsername) :
    Option ExpiryEntry :=
  contents ExpiryEntry.owner cache.entries username

def WellFormed (cache : ExpiryCache) : Prop :=
  Unshared ExpiryEntry.owner cache.entries

theorem wellFormed_init : init.WellFormed := by
  intro first second username owned
  rw [init, ExpiryEntry.owner_empty] at owned
  cases owned

theorem held_init (username : EncodedUsername) : init.held username = none := by
  apply contents_eq_none_iff.mpr
  intro slot owned
  rw [init, ExpiryEntry.owner_empty] at owned
  cases owned

/-- A durable event was offered against `entry` and one grace login was taken
from it. -/
structure GraceAttempt.Consumes (attempt : GraceAttempt) (cache : ExpiryCache)
    (username : EncodedUsername) (flags : EventFlags) (entry : ExpiryEntry) :
    Prop where
  held : cache.held username = some entry
  ready : cache.readState = .ready
  grace : 0 < entry.graceRemaining
  outcome : attempt.result.outcome = .consumed
  offered : attempt.offered = some ⟨username, flags, entry.generation⟩
  wellFormed : attempt.cache.WellFormed
  after : ∀ other, attempt.cache.held other =
    if other = username then
      some { entry with graceRemaining := entry.graceRemaining - 1 }
    else cache.held other

structure GraceAttempt.Declines (attempt : GraceAttempt) (cache : ExpiryCache)
    (username : EncodedUsername) (flags : EventFlags) (durable : Bool) :
    Prop where
  unchanged : attempt.cache = cache
  outcome : attempt.result.outcome ≠ .consumed
  offered : attempt.offered = none ∨ durable = false ∧
    ∃ entry, cache.held username = some entry ∧
      attempt.offered = some ⟨username, flags, entry.generation⟩

theorem classify_withGrace {entry : ExpiryEntry} {now : TimestampTz}
    (verdict : classify entry now = .expiredWithGrace) :
    0 < entry.graceRemaining := by
  rw [classify] at verdict
  split at verdict
  · cases verdict
  split at verdict
  · next grace => exact grace
  · cases verdict

theorem WellFormed.takeGrace {cache : ExpiryCache}
    (wellFormed : cache.WellFormed) {slot : Fin expiryCacheSize}
    {username : EncodedUsername} (entry : ExpiryEntry)
    (owned : (cache.entries slot).owner = some username)
    (same : entry.owner = (cache.entries slot).owner) :
    Unshared ExpiryEntry.owner (Function.update cache.entries slot entry) ∧
      ∀ other,
        contents ExpiryEntry.owner (Function.update cache.entries slot entry)
            other =
          if other = username then some entry else cache.held other := by
  have unshared : Unshared ExpiryEntry.owner
      (Function.update cache.entries slot entry) := by
    apply Unshared.update wellFormed
    intro key owns other different shared
    rw [same] at owns
    exact different (wellFormed other slot key shared owns)
  refine ⟨unshared, fun other => ?_⟩
  rw [contents_update wellFormed unshared, same, owned]
  by_cases here : other = username
  · rw [if_pos here, if_pos (congrArg some here.symm)]
  · have elsewhere : some username ≠ some other :=
      fun equal => here (Option.some.inj equal).symm
    rw [if_neg here, if_neg elsewhere, if_neg elsewhere]
    rfl

/-- A durable event was offered against the slot of the user, and the count of
that slot was lowered by one. -/
structure GraceAttempt.TakesFrom (attempt : GraceAttempt) (cache : ExpiryCache)
    (username : EncodedUsername) (flags : EventFlags)
    (slot : Fin expiryCacheSize) : Prop where
  ready : cache.readState = .ready
  found : slotOf ExpiryEntry.owner cache.entries username = some slot
  grace : 0 < (cache.entries slot).graceRemaining
  outcome : attempt.result.outcome = .consumed
  offered : attempt.offered =
    some ⟨username, flags, (cache.entries slot).generation⟩
  cache : attempt.cache =
    { cache with
      entries := Function.update cache.entries slot { cache.entries slot with
        graceRemaining := (cache.entries slot).graceRemaining - 1 } }

theorem tryConsumeGrace_slots (cache : ExpiryCache) (username : String)
    (now : TimestampTz) (flags : EventFlags) (step : EnqueueStep) :
    (step.outcome.isDurable = true ∧ ∃ slot,
        (cache.tryConsumeGrace username now flags step).TakesFrom cache
          (encodeUsername username) flags slot) ∨
      (cache.tryConsumeGrace username now flags step).Declines cache
        (encodeUsername username) flags step.outcome.isDurable := by
  rw [tryConsumeGrace]
  split
  · exact .inr ⟨rfl, by simp, .inl rfl⟩
  next ready =>
  split
  · exact .inr ⟨rfl, by simp, .inl rfl⟩
  next slot found =>
  have held : cache.held (encodeUsername username) =
      some (cache.entries slot) := by
    rw [ExpiryCache.held, contents, found]
    rfl
  dsimp only
  split
  · exact .inr ⟨rfl, by simp, .inl rfl⟩
  · exact .inr ⟨rfl, by simp, .inl rfl⟩
  · exact .inr ⟨rfl, by simp, .inl rfl⟩
  · exact .inr ⟨rfl, by simp, .inl rfl⟩
  next verdict =>
  split
  · next refused =>
      have notDurable : step.outcome.isDurable = false := by simpa using refused
      exact .inr ⟨rfl, by simp, .inr ⟨notDurable, _, held, rfl⟩⟩
  · next durable =>
      exact .inl ⟨by simpa using durable, slot, {
        ready := not_not.mp ready
        found := found
        grace := classify_withGrace verdict
        outcome := rfl
        offered := rfl
        cache := rfl }⟩

/-- Everything `try_consume_grace` can do. -/
theorem WellFormed.tryConsumeGrace_cases {cache : ExpiryCache}
    (wellFormed : cache.WellFormed) (username : String) (now : TimestampTz)
    (flags : EventFlags) (step : EnqueueStep) {attempt : GraceAttempt}
    (attempted : cache.tryConsumeGrace username now flags step = attempt) :
    (step.outcome.isDurable = true ∧ ∃ entry,
        attempt.Consumes cache (encodeUsername username) flags entry) ∨
      attempt.Declines cache (encodeUsername username) flags
        step.outcome.isDurable := by
  subst attempted
  rcases cache.tryConsumeGrace_slots username now flags step with
    ⟨durable, slot, taken⟩ | declined
  · have owned := owner_of_slotOf taken.found
    rcases wellFormed.takeGrace { cache.entries slot with
        graceRemaining := (cache.entries slot).graceRemaining - 1 } owned
      rfl with ⟨unshared, after⟩
    refine .inl ⟨durable, cache.entries slot, {
      held := ?_
      ready := taken.ready
      grace := taken.grace
      outcome := taken.outcome
      offered := taken.offered
      wellFormed := ?_
      after := ?_ }⟩
    · rw [ExpiryCache.held, contents, taken.found]
      rfl
    · rw [taken.cache]
      exact unshared
    · intro other
      rw [taken.cache]
      exact after other
  · exact .inr declined

/-- The user has no entry, and no slot is free. -/
def Refuses (cache : ExpiryCache) (username : EncodedUsername) : Prop :=
  username.isFree = false ∧
    ∀ slot, (cache.entries slot).owner ≠ some username ∧
      (cache.entries slot).username.isFree = false

theorem setEntry_of_refuses {cache : ExpiryCache} {username : EncodedUsername}
    (refuses : cache.Refuses username) (mustChangeBy generation : TimestampTz)
    (graceRemaining : Int) :
    cache.setEntry username mustChangeBy generation graceRemaining =
      ({ cache with state := ExpiryCacheState.overflow.raw },
        .overflowed) := by
  rcases refuses with ⟨used, full⟩
  rw [setEntry, if_neg (by simp [used]), place_eq_none_iff.mpr full]

theorem init_not_refuses (username : EncodedUsername) :
    ¬(init.setState .ready).Refuses username := by
  intro refuses
  have positive : 0 < expiryCacheSize := by
    rw [expiryCacheSize]
    decide
  have full := (refuses.2 ⟨0, positive⟩).2
  exact Bool.noConfusion full

theorem setEntry_of_not_refuses {cache : ExpiryCache}
    {username : EncodedUsername} (fits : ¬cache.Refuses username)
    (mustChangeBy generation : TimestampTz) (graceRemaining : Int) :
    ((cache.setEntry username mustChangeBy generation graceRemaining).2 =
        .overflowed → username.isFree = true) ∧
      (cache.setEntry username mustChangeBy generation
        graceRemaining).1.state = cache.state := by
  rw [setEntry]
  split
  · rename_i free
    exact ⟨fun _ => free, rfl⟩
  · rename_i used
    cases placed : place ExpiryEntry.owner (fun entry => entry.username.isFree)
        cache.entries username
        ⟨username, mustChangeBy, generation, max graceRemaining 0⟩ with
    | some entries =>
        refine ⟨fun overflowed => ?_, rfl⟩
        cases overflowed
    | none =>
        exact absurd ⟨Bool.eq_false_of_not_eq_true used,
          place_eq_none_iff.mp placed⟩ fits

theorem held_setEntry_other (cache : ExpiryCache)
    {username other : EncodedUsername} (different : other ≠ username)
    (mustChangeBy generation : TimestampTz) (graceRemaining : Int) :
    (cache.setEntry username mustChangeBy generation
      graceRemaining).1.held other = cache.held other := by
  rw [setEntry]
  split
  · rfl
  rcases @place_cases _ _ _ _ ExpiryEntry.owner
      (fun entry => entry.username.isFree) cache.entries username
      ⟨username, mustChangeBy, generation, max graceRemaining 0⟩ with
    ⟨slot, placed, source⟩ | ⟨refused, _⟩
  · rw [placed]
    apply contents_update_other
    · rcases source with own | ⟨spare, _⟩
      · rw [own]
        exact fun same => different (Option.some.inj same).symm
      · rw [ExpiryEntry.owner, if_pos spare]
        intro owned
        cases owned
    · intro owned
      exact different (ExpiryEntry.owner_eq_some_iff.mp owned).2.symm
  · rw [refused]
    rfl

theorem held_clearEntry_other (cache : ExpiryCache)
    {username other : EncodedUsername} (different : other ≠ username) :
    (cache.clearEntry username).1.held other = cache.held other := by
  rw [clearEntry, held, release]
  cases own : slotOf ExpiryEntry.owner cache.entries username with
  | none => rfl
  | some slot =>
      apply contents_update_other
      · rw [owner_of_slotOf own]
        exact fun same => different (Option.some.inj same).symm
      · rw [ExpiryEntry.owner_empty]
        intro owned
        cases owned

theorem applyHydrated_spec (cache : ExpiryCache) {prepared : List ExpiryEntry}
    (rows overflow : Int) (newState : ExpiryCacheState)
    (distinct : (prepared.map ExpiryEntry.username).Nodup)
    (fits : prepared.length ≤ expiryCacheSize) :
    (cache.applyHydrated prepared rows overflow newState).1.WellFormed ∧
      ∀ username entry,
        (cache.applyHydrated prepared rows overflow newState).1.held
            username = some entry ↔
          entry ∈ prepared ∧ entry.owner = some username := by
  have owners : (prepared.filter installs).map ExpiryEntry.owner =
      ((prepared.filter installs).map ExpiryEntry.username).map some := by
    rw [List.map_map]
    apply List.map_congr_left
    intro entry member
    have used : entry.username.isFree = false := by
      simpa [installs] using (List.mem_filter.mp member).2
    exact ExpiryEntry.owner_eq_some_iff.mpr ⟨used, rfl⟩
  have ownersDistinct :
      ((prepared.filter installs).map ExpiryEntry.owner).Nodup := by
    rw [owners]
    exact (distinct.sublist (List.filter_sublist.map _)).map
      (Option.some_injective _)
  have room := (List.length_filter_le installs prepared).trans fits
  rcases fill_spec ExpiryEntry.owner_empty ownersDistinct room rfl with
    ⟨unshared, read⟩
  refine ⟨unshared, fun username entry => ?_⟩
  apply (read username entry).trans
  rw [List.mem_filter, and_assoc]
  apply and_congr_right
  intro _
  constructor
  · exact fun both => both.2
  · intro owned
    have used := (ExpiryEntry.owner_eq_some_iff.mp owned).1
    exact ⟨by simp [installs, used], owned⟩

end ExpiryCache

end PasswordProfile.Expiry
