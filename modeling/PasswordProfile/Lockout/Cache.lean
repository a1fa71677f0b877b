import PasswordProfile.Foundation.SlotTable
import PasswordProfile.PendingCacheOp.State

/-! # The shared lock cache

A fixed array of lockouts with a readiness state. Each operation runs in one
lock section and takes the clock reading that it makes as an argument.
-/

namespace PasswordProfile.Lockout

open SlotTable
open PendingCacheOp (CacheDecision)

@[irreducible] def lockCacheSize : Nat := 2048

abbrev microsPerSec : Int := 1000000

structure LockEntry where
  username : EncodedUsername
  expiresAt : TimestampTz
  deriving DecidableEq, Repr

def LockEntry.new : LockEntry := ⟨.zero, 0⟩

def LockEntry.owner (entry : LockEntry) : Option EncodedUsername :=
  if entry.username.isFree then none else some entry.username

inductive CacheState
  | notReady
  | ready
  | overflow
  | workerFailed
  deriving DecidableEq, Repr

namespace CacheState

def raw : CacheState → Int
  | notReady => 0
  | ready => 1
  | overflow => 2
  | workerFailed => 3

def fromRaw (raw : Int) : CacheState :=
  if raw = 1 then ready
  else if raw = 2 then overflow
  else if raw = 3 then workerFailed
  else notReady

@[simp] theorem fromRaw_raw (state : CacheState) : fromRaw state.raw = state := by
  cases state <;> rfl

end CacheState

inductive CacheOpStatus
  | applied
  | overflowed
  deriving DecidableEq, Repr

/-- The one place where a `lockout_until` becomes a cache operation. -/
def decisionFor (lockoutUntil : Option TimestampTz) (now : TimestampTz) :
    CacheDecision :=
  match lockoutUntil with
  | some expiresAt => if expiresAt > now then .setLock expiresAt else .clearLock
  | none => .clearLock

theorem decisionFor_active {expiresAt now : TimestampTz}
    (active : now < expiresAt) :
    decisionFor (some expiresAt) now = .setLock expiresAt := if_pos active

structure LockCache where
  entries : Fin lockCacheSize → LockEntry
  hydrationActiveTotal : Int
  hydrationLoaded : Int
  hydrationOverflow : Int
  /-- The raw value of a `CacheState`. -/
  state : Int

def remainingSecondsCeil (expiresAt now : TimestampTz) : Option Int :=
  if expiresAt ≤ now then none
  else
    let delta := expiresAt - now
    let whole := delta / microsPerSec
    let secs := if delta % microsPerSec ≠ 0 then whole + 1 else whole
    some (max secs 1)

namespace LockCache

def init : LockCache where
  entries := fun _ => .new
  hydrationActiveTotal := 0
  hydrationLoaded := 0
  hydrationOverflow := 0
  state := CacheState.notReady.raw

def readState (cache : LockCache) : CacheState := .fromRaw cache.state

def setState (cache : LockCache) (newState : CacheState) : LockCache :=
  { cache with state := newState.raw }

/-- A slot that `set` may take for another user. -/
def reusable (now : TimestampTz) (entry : LockEntry) : Bool :=
  entry.username.isFree || decide (entry.expiresAt ≤ now)

/-- Install or refresh a lockout; an active one is never evicted. -/
def set (cache : LockCache) (username : EncodedUsername)
    (expiresAt now : TimestampTz) : LockCache × CacheOpStatus :=
  if expiresAt ≤ now then (cache, .applied)
  else if username.isFree then (cache, .applied)
  else
    match place LockEntry.owner (reusable now) cache.entries username
        ⟨username, expiresAt⟩ with
    | some entries => ({ cache with entries }, .applied)
    | none => ({ cache with state := CacheState.overflow.raw }, .overflowed)

def clear (cache : LockCache) (username : EncodedUsername) :
    LockCache × CacheOpStatus :=
  ({ cache with
      entries := release LockEntry.owner .new cache.entries username },
    .applied)

/-- One call that `apply_all` makes on the lock cache. -/
def applyDecision (now : TimestampTz) (cache : LockCache)
    (entry : EncodedUsername × CacheDecision) : LockCache :=
  match entry.2 with
  | .setLock expiresAt => (cache.set entry.1 expiresAt now).1
  | .clearLock => (cache.clear entry.1).1

/-- The search that `remaining_seconds` makes. -/
def findActive (cache : LockCache) (encoded : EncodedUsername)
    (now : TimestampTz) : Option TimestampTz :=
  (Fin.find? fun slot =>
      !(cache.entries slot).username.isFree &&
        ((cache.entries slot).username == encoded &&
          decide ((cache.entries slot).expiresAt > now))).map
    fun slot => (cache.entries slot).expiresAt

def remainingSeconds (cache : LockCache) (username : String)
    (now : TimestampTz) : Option Int :=
  (cache.findActive (encodeUsername username) now).bind
    (remainingSecondsCeil · now)

def installs (now : TimestampTz) (prepared : LockEntry) : Bool :=
  !(prepared.username.isFree ||
    decisionFor (some prepared.expiresAt) now == .clearLock)

/-- Replace the whole content; also returns how many entries were loaded. -/
def applyHydratedEntries (cache : LockCache) (prepared : List LockEntry)
    (activeTotal overflow : Int) (newState : CacheState) (now : TimestampTz) :
    LockCache × Int :=
  let (entries, loaded) := fillFrom (installs now) prepared 0 fun _ => .new
  ({ cache with
      entries
      hydrationActiveTotal := activeTotal
      hydrationLoaded := loaded
      hydrationOverflow := overflow
      state := newState.raw },
    loaded)

end LockCache

/-! ## The cache as a map -/

theorem LockEntry.owner_eq_some_iff {entry : LockEntry}
    {username : EncodedUsername} :
    entry.owner = some username ↔
      entry.username.isFree = false ∧ entry.username = username := by
  rw [owner]
  split <;> simp_all

theorem LockEntry.owner_new : LockEntry.new.owner = none := by decide

theorem LockEntry.owner_mk {username : EncodedUsername}
    (used : username.isFree = false) (expiresAt : TimestampTz) :
    (LockEntry.mk username expiresAt).owner = some username :=
  owner_eq_some_iff.mpr ⟨used, rfl⟩

namespace LockCache

/-- The lockout that the cache holds for a user, active or not. -/
def held (cache : LockCache) (username : EncodedUsername) :
    Option TimestampTz :=
  (contents LockEntry.owner cache.entries username).map LockEntry.expiresAt

def WellFormed (cache : LockCache) : Prop :=
  Unshared LockEntry.owner cache.entries

theorem wellFormed_init : init.WellFormed := by
  intro first second username owned
  rw [init, LockEntry.owner_new] at owned
  cases owned

theorem held_eq_some_iff {cache : LockCache} {username : EncodedUsername}
    {expiresAt : TimestampTz} :
    cache.held username = some expiresAt ↔
      contents LockEntry.owner cache.entries username =
        some ⟨username, expiresAt⟩ := by
  rw [held, Option.map_eq_some_iff]
  constructor
  · intro given
    rcases given with ⟨⟨name, expiry⟩, found, rfl⟩
    rcases Option.map_eq_some_iff.mp found with ⟨slot, owned, entry⟩
    have same := (LockEntry.owner_eq_some_iff.mp (owner_of_slotOf owned)).2
    rw [entry] at same
    change name = username at same
    rw [found, same]
  · intro found
    exact ⟨_, found, rfl⟩

theorem WellFormed.findActive_eq_some_iff {cache : LockCache}
    (wellFormed : cache.WellFormed) {username : EncodedUsername}
    {expiresAt now : TimestampTz} :
    cache.findActive username now = some expiresAt ↔
      cache.held username = some expiresAt ∧ now < expiresAt := by
  rw [held_eq_some_iff, Unshared.contents_eq_some_iff wellFormed, findActive,
    Option.map_eq_some_iff]
  constructor
  · intro given
    rcases given with ⟨slot, found, rfl⟩
    have accepted := Fin.eq_true_of_find?_eq_some found
    simp only [Bool.and_eq_true, Bool.not_eq_true', beq_iff_eq,
      decide_eq_true_eq] at accepted
    rcases accepted with ⟨used, same, active⟩
    have entry : cache.entries slot =
        ⟨username, (cache.entries slot).expiresAt⟩ := by
      rw [← same]
    exact ⟨⟨slot, entry, LockEntry.owner_mk (same ▸ used) _⟩, active⟩
  · intro given
    rcases given with ⟨⟨slot, entry, owned⟩, active⟩
    have accepted : ∃ slot, (!(cache.entries slot).username.isFree &&
        ((cache.entries slot).username == username &&
          decide ((cache.entries slot).expiresAt > now))) = true := by
      have used := (LockEntry.owner_eq_some_iff.mp owned).1
      exact ⟨slot, by simpa [entry, used] using active⟩
    rcases Option.isSome_iff_exists.mp (Fin.isSome_find?_iff.mpr accepted) with
      ⟨other, found⟩
    refine ⟨other, found, ?_⟩
    have matched := Fin.eq_true_of_find?_eq_some found
    simp only [Bool.and_eq_true, Bool.not_eq_true', beq_iff_eq,
      decide_eq_true_eq] at matched
    have same := wellFormed other slot username
      (LockEntry.owner_eq_some_iff.mpr ⟨matched.1, matched.2.1⟩)
      (by rw [entry]; exact owned)
    rw [same, entry]

/-! ## What the operations do to the map -/

/-- Nothing that is still active at `now` was lost, except for `username`. -/
def KeepsOthers (username : EncodedUsername) (now : TimestampTz)
    (before after : LockCache) : Prop :=
  ∀ other, other ≠ username → ∀ expiresAt,
    before.held other = some expiresAt → now < expiresAt →
      after.held other = some expiresAt

/-- Everything `set` can do to a cache. -/
structure SetResult (username : EncodedUsername) (expiresAt now : TimestampTz)
    (before after : LockCache) : Prop where
  wellFormed : after.WellFormed
  keepsOthers : KeepsOthers username now before after
  state : after.readState = before.readState ∨ after.readState = .overflow
  held : username.isFree = false → now < expiresAt →
    after.readState = .ready → after.held username = some expiresAt

theorem WellFormed.set_result {cache : LockCache}
    (wellFormed : cache.WellFormed) (username : EncodedUsername)
    (expiresAt now : TimestampTz) :
    SetResult username expiresAt now cache
      (cache.set username expiresAt now).1 := by
  rw [set]
  by_cases expired : expiresAt ≤ now
  · rw [if_pos expired]
    exact ⟨wellFormed, fun _ _ _ found _ => found, .inl rfl,
      fun _ active => absurd active (not_lt.mpr expired)⟩
  rw [if_neg expired]
  by_cases free : username.isFree = true
  · rw [if_pos free]
    exact ⟨wellFormed, fun _ _ _ found _ => found, .inl rfl,
      fun used => absurd free (by simp [used])⟩
  · have used := Bool.eq_false_of_not_eq_true free
    rw [if_neg free]
    have owned := LockEntry.owner_mk used expiresAt
    cases placed : place LockEntry.owner (reusable now) cache.entries
        username ⟨username, expiresAt⟩ with
    | none =>
        exact ⟨wellFormed, fun _ _ _ found _ => found, .inr rfl,
          fun _ _ ready => by cases ready⟩
    | some entries =>
        rcases place_spec wellFormed owned placed with
          ⟨unshared, here, others⟩
        refine ⟨unshared, fun other different expiry found active => ?_,
          .inl rfl, fun _ _ _ => held_eq_some_iff.mpr here⟩
        rw [held_eq_some_iff] at found ⊢
        rcases others other different with same | ⟨_, old, lost, spare⟩
        · rw [← found]
          exact same
        · rw [found, Option.some.injEq] at lost
          subst lost
          have used : other.isFree = false :=
            (LockEntry.owner_eq_some_iff.mp
              ((wellFormed.contents_eq_some_iff).mp found).choose_spec.2).1
          simp only [reusable, used, Bool.false_or, decide_eq_true_eq] at spare
          exact absurd active (not_lt.mpr spare)

/-- The user of an active lockout has no entry, and every slot holds an active
one. -/
def Refuses (cache : LockCache) (username : EncodedUsername)
    (expiresAt now : TimestampTz) : Prop :=
  now < expiresAt ∧ username.isFree = false ∧
    ∀ slot, (cache.entries slot).owner ≠ some username ∧
      reusable now (cache.entries slot) = false

theorem set_of_refuses {cache : LockCache} {username : EncodedUsername}
    {expiresAt now : TimestampTz}
    (refuses : cache.Refuses username expiresAt now) :
    cache.set username expiresAt now =
      ({ cache with state := CacheState.overflow.raw }, .overflowed) := by
  rcases refuses with ⟨active, used, full⟩
  rw [set, if_neg (not_le.mpr active), if_neg (by simp [used]),
    place_eq_none_iff.mpr full]

theorem set_of_not_refuses {cache : LockCache} {username : EncodedUsername}
    {expiresAt now : TimestampTz}
    (fits : ¬cache.Refuses username expiresAt now) :
    (cache.set username expiresAt now).2 = .applied ∧
      (cache.set username expiresAt now).1.state = cache.state := by
  rw [set]
  split
  · exact ⟨rfl, rfl⟩
  · rename_i active
    split
    · exact ⟨rfl, rfl⟩
    · rename_i used
      cases placed : place LockEntry.owner (reusable now) cache.entries
          username ⟨username, expiresAt⟩ with
      | some entries => exact ⟨rfl, rfl⟩
      | none =>
          exact absurd ⟨not_le.mp active, Bool.eq_false_of_not_eq_true used,
            place_eq_none_iff.mp placed⟩ fits

theorem WellFormed.clear_result {cache : LockCache}
    (wellFormed : cache.WellFormed) (username : EncodedUsername)
    (now : TimestampTz) :
    (cache.clear username).1.WellFormed ∧
      KeepsOthers username now cache (cache.clear username).1 := by
  rcases @release_spec _ _ _ _ _ cache.entries username .new wellFormed
    LockEntry.owner_new with ⟨unshared, _, others⟩
  refine ⟨unshared, fun other different expiresAt found _ => ?_⟩
  rw [held_eq_some_iff] at found
  apply held_eq_some_iff.mpr
  exact (others other different).trans found

theorem WellFormed.held_clear_self {cache : LockCache}
    (wellFormed : cache.WellFormed) (username : EncodedUsername) :
    (cache.clear username).1.held username = none := by
  have gone := (@release_spec _ _ _ _ _ cache.entries username .new wellFormed
    LockEntry.owner_new).2.1
  rw [held, clear, gone]
  rfl

/-- The search for an active lockout at `now` stops at this entry. -/
def activeFor (encoded : EncodedUsername) (now : TimestampTz)
    (entry : LockEntry) : Bool :=
  !entry.username.isFree &&
    (entry.username == encoded && decide (entry.expiresAt > now))

theorem activeFor_of_ne {encoded : EncodedUsername} {entry : LockEntry}
    (different : entry.username ≠ encoded) (now : TimestampTz) :
    activeFor encoded now entry = false := by
  simp [activeFor, different]

theorem findActive_update {cache : LockCache} {slot : Fin lockCacheSize}
    {entry : LockEntry} {encoded : EncodedUsername} {now : TimestampTz}
    (old : activeFor encoded now (cache.entries slot) = false)
    (new : activeFor encoded now entry = false) :
    LockCache.findActive { cache with
        entries := Function.update cache.entries slot entry } encoded now =
      cache.findActive encoded now := by
  have same := congrArg (Option.map LockEntry.expiresAt)
    (map_find?_update old new)
  rw [Option.map_map, Option.map_map] at same
  exact same

/-- What others find, now or later, is the same after `set`: the slots that it
may take are free or expired. -/
theorem findActive_set_other (cache : LockCache)
    {username other : EncodedUsername} (different : other ≠ username)
    {expiresAt now time : TimestampTz} (later : now ≤ time) :
    (cache.set username expiresAt now).1.findActive other time =
      cache.findActive other time := by
  rw [set]
  split
  · rfl
  split
  · rfl
  rcases @place_cases _ _ _ _ LockEntry.owner (reusable now) cache.entries
      username ⟨username, expiresAt⟩ with
    ⟨slot, placed, source⟩ | ⟨refused, _⟩
  · rw [placed]
    apply findActive_update _ (activeFor_of_ne different.symm time)
    rcases source with own | ⟨spare, _⟩
    · apply activeFor_of_ne
      rw [(LockEntry.owner_eq_some_iff.mp own).2]
      exact different.symm
    · rw [reusable, Bool.or_eq_true, decide_eq_true_eq] at spare
      rcases spare with free | expired
      · simp [activeFor, free]
      · have notActive := not_lt.mpr (le_trans expired later)
        simp [activeFor, notActive]
  · rw [refused]
    rfl

theorem findActive_clear_other (cache : LockCache)
    {username other : EncodedUsername} (different : other ≠ username)
    (time : TimestampTz) :
    (cache.clear username).1.findActive other time =
      cache.findActive other time := by
  rw [clear, release]
  cases own : slotOf LockEntry.owner cache.entries username with
  | none => rfl
  | some slot =>
      have owned := LockEntry.owner_eq_some_iff.mp (owner_of_slotOf own)
      apply findActive_update
      · apply activeFor_of_ne
        rw [owned.2]
        exact different.symm
      · rfl

theorem applyHydratedEntries_spec (cache : LockCache)
    {prepared : List LockEntry} (activeTotal overflow : Int)
    (newState : CacheState) (now : TimestampTz)
    (distinct : (prepared.map LockEntry.username).Nodup)
    (fits : prepared.length ≤ lockCacheSize) :
    (cache.applyHydratedEntries prepared activeTotal overflow newState
        now).1.WellFormed ∧
      ∀ username expiresAt,
        (cache.applyHydratedEntries prepared activeTotal overflow newState
            now).1.held username = some expiresAt ↔
          ⟨username, expiresAt⟩ ∈ prepared ∧ username.isFree = false ∧
            now < expiresAt := by
  have accepted : ∀ entry, installs now entry = true ↔
      entry.username.isFree = false ∧ now < entry.expiresAt := by
    intro entry
    simp [installs, decisionFor]
  have owners : (prepared.filter (installs now)).map LockEntry.owner =
      ((prepared.filter (installs now)).map LockEntry.username).map some := by
    rw [List.map_map]
    apply List.map_congr_left
    intro entry member
    have used := ((accepted entry).mp (List.mem_filter.mp member).2).1
    exact LockEntry.owner_mk used entry.expiresAt
  have ownersDistinct :
      ((prepared.filter (installs now)).map LockEntry.owner).Nodup := by
    rw [owners]
    exact (distinct.sublist (List.filter_sublist.map _)).map
      (Option.some_injective _)
  have room := (List.length_filter_le (installs now) prepared).trans fits
  rcases fill_spec LockEntry.owner_new ownersDistinct room rfl with
    ⟨unshared, read⟩
  refine ⟨unshared, fun username expiresAt => ?_⟩
  rw [held_eq_some_iff]
  apply (read username _).trans
  rw [List.mem_filter, accepted, LockEntry.owner_eq_some_iff]
  simp only [and_assoc, and_true]
  constructor
  · intro given
    rcases given with ⟨member, used, active, _⟩
    exact ⟨member, used, active⟩
  · intro given
    rcases given with ⟨member, used, active⟩
    exact ⟨member, used, active, used⟩

end LockCache

end PasswordProfile.Lockout
