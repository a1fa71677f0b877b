import PasswordProfile.Foundation.SlotTable
import PasswordProfile.Foundation.Selection
import PasswordProfile.Login.ClientAuthHook

/-! # The shared bypass cache

The exempt roles, projected into shared memory because the login hook cannot
read the catalog that holds them. A refresh replaces the whole content.
-/

namespace PasswordProfile.Bypass

open Selection SlotTable
open Login (BypassDecision)

@[irreducible] def bypassCacheSize : Nat := 1024

inductive BypassCacheState
  | notReady
  | ready
  | overflow
  | workerFailed
  deriving DecidableEq, Repr

namespace BypassCacheState

def raw : BypassCacheState → Int
  | notReady => 0
  | ready => 1
  | overflow => 2
  | workerFailed => 3

def fromRaw (raw : Int) : BypassCacheState :=
  if raw = 1 then ready
  else if raw = 2 then overflow
  else if raw = 3 then workerFailed
  else notReady

@[simp] theorem fromRaw_raw (state : BypassCacheState) :
    fromRaw state.raw = state := by
  cases state <;> rfl

end BypassCacheState

structure BypassCache where
  entries : Fin bypassCacheSize → EncodedUsername
  /-- The raw value of a `BypassCacheState`. -/
  state : Int
  rows : Int
  overflow : Int

def entryOwner (entry : EncodedUsername) : Option EncodedUsername :=
  if entry.isFree then none else some entry

def preparedEntry (username : String) : EncodedUsername :=
  encodeUsername username

namespace BypassCache

def init : BypassCache where
  entries := fun _ => .zero
  state := BypassCacheState.notReady.raw
  rows := 0
  overflow := 0

def readState (cache : BypassCache) : BypassCacheState := .fromRaw cache.state

def setState (cache : BypassCache) (newState : BypassCacheState) :
    BypassCache :=
  { cache with state := newState.raw }

def lookup (cache : BypassCache) (username : String) : BypassDecision :=
  let encoded := encodeUsername username
  if encoded.isFree then .unavailable
  else if cache.readState ≠ .ready then .unavailable
  else
    match slotOf entryOwner cache.entries encoded with
    | some _ => .bypassed
    | none => .notBypassed

def installs (prepared : EncodedUsername) : Bool := !prepared.isFree

def applyRefreshed (cache : BypassCache) (prepared : List EncodedUsername)
    (rows overflow : Int) (newState : BypassCacheState) : BypassCache × Int :=
  let (entries, loaded) := fillFrom installs prepared 0 fun _ => .zero
  ({ cache with entries, rows, overflow, state := newState.raw }, loaded)

end BypassCache

structure BypassSnapshot where
  rows : Int
  prepared : List EncodedUsername
  deriving DecidableEq

namespace BypassSnapshot

/-- The two statements of `refresh_bypass_cache`, with the role names that the
exemption predicate selects; `ORDER BY a.rolname ASC`. -/
def read (exempt : List String) : BypassSnapshot where
  rows := exempt.length
  prepared :=
    (select (· ≤ ·) bypassCacheSize exempt).filterMap fun username =>
      if username.isEmpty then none else some (preparedEntry username)

def overflow (snapshot : BypassSnapshot) : Int :=
  max (snapshot.rows - snapshot.prepared.length) 0

def newState (snapshot : BypassSnapshot) : BypassCacheState :=
  if snapshot.overflow = 0 then .ready else .overflow

def install (snapshot : BypassSnapshot) (cache : BypassCache) :
    BypassCache × Int :=
  cache.applyRefreshed snapshot.prepared snapshot.rows snapshot.overflow
    snapshot.newState

end BypassSnapshot

/-- What `refresh_bypass_cache` returns. -/
structure BypassRefreshStats where
  rows : Int
  loaded : Int
  overflow : Int
  deriving DecidableEq, Repr

def refreshBypassCache (cache : BypassCache) (exempt : List String) :
    BypassCache × BypassRefreshStats :=
  let snapshot := BypassSnapshot.read exempt
  let (installed, loaded) := snapshot.install cache
  (installed, ⟨snapshot.rows, loaded, snapshot.overflow⟩)

/-! ## The cache as a set -/

theorem entryOwner_eq_some_iff {entry username : EncodedUsername} :
    entryOwner entry = some username ↔
      entry.isFree = false ∧ entry = username := by
  rw [entryOwner]
  split <;> simp_all

theorem entryOwner_zero : entryOwner .zero = none := by decide

namespace BypassCache

def Holds (cache : BypassCache) (encoded : EncodedUsername) : Prop :=
  ∃ slot, entryOwner (cache.entries slot) = some encoded

theorem lookup_eq_bypassed_iff {cache : BypassCache}
    (ready : cache.readState = .ready) {username : String}
    (role : IsRoleName username) :
    cache.lookup username = .bypassed ↔
      cache.Holds (encodeUsername username) := by
  have notUnavailable : ¬cache.readState ≠ .ready := fun other => other ready
  rw [lookup]
  simp only [encodeUsername_not_free role, Bool.false_eq_true, if_false,
    notUnavailable]
  cases found : slotOf entryOwner cache.entries (encodeUsername username) with
  | none =>
      have missing := slotOf_eq_none_iff.mp found
      simp only [reduceCtorEq, false_iff]
      intro holds
      exact missing holds.choose holds.choose_spec
  | some slot => simpa using ⟨slot, owner_of_slotOf found⟩

theorem holds_applyRefreshed (cache : BypassCache)
    {prepared : List EncodedUsername} (rows overflow : Int)
    (newState : BypassCacheState) (distinct : prepared.Nodup)
    (fits : prepared.length ≤ bypassCacheSize) {encoded : EncodedUsername} :
    (cache.applyRefreshed prepared rows overflow newState).1.Holds encoded ↔
      encoded ∈ prepared ∧ encoded.isFree = false := by
  have owners : (prepared.filter installs).map entryOwner =
      (prepared.filter installs).map some := by
    apply List.map_congr_left
    intro entry member
    have used : entry.isFree = false := by
      simpa [installs] using (List.mem_filter.mp member).2
    exact entryOwner_eq_some_iff.mpr ⟨used, rfl⟩
  have ownersDistinct :
      ((prepared.filter installs).map entryOwner).Nodup := by
    rw [owners]
    exact (distinct.filter _).map (Option.some_injective _)
  have room := (List.length_filter_le installs prepared).trans fits
  rcases fill_spec entryOwner_zero ownersDistinct room rfl with
    ⟨unshared, read⟩
  have stored := read encoded encoded
  rw [unshared.contents_eq_some_iff, List.mem_filter] at stored
  constructor
  · intro holds
    rcases holds with ⟨slot, owned⟩
    have same := (entryOwner_eq_some_iff.mp owned).2
    rw [same] at owned
    rcases (stored.mp ⟨slot, same, owned⟩).1 with ⟨member, _⟩
    exact ⟨member, (entryOwner_eq_some_iff.mp owned).1⟩
  · intro given
    rcases given with ⟨member, used⟩
    have owned := entryOwner_eq_some_iff.mpr ⟨used, (rfl : encoded = encoded)⟩
    rcases stored.mpr ⟨⟨member, by simp [installs, used]⟩, owned⟩ with
      ⟨slot, same, _⟩
    exact ⟨slot, (congrArg entryOwner same).trans owned⟩

end BypassCache

/-! ## What a refresh installs -/

namespace BypassSnapshot

theorem newState_eq_ready_iff (snapshot : BypassSnapshot) :
    snapshot.newState = .ready ↔ snapshot.overflow = 0 := by
  rw [newState]
  split <;> simp_all

theorem readState_install (snapshot : BypassSnapshot) (cache : BypassCache) :
    (snapshot.install cache).1.readState = snapshot.newState :=
  BypassCacheState.fromRaw_raw snapshot.newState

theorem overflow_read_eq_zero_iff (exempt : List String) :
    (read exempt).overflow = 0 ↔
      exempt.length ≤ bypassCacheSize ∧ ∀ username ∈ exempt, username ≠ "" :=
  excess_eq_zero_iff

variable {exempt : List String}

theorem read_prepared (roles : ∀ username ∈ exempt, IsRoleName username) :
    (read exempt).prepared =
      (select (· ≤ ·) bypassCacheSize exempt).map preparedEntry :=
  prepared_eq_map fun username member => (roles username member).ne_empty

theorem holds_install (roles : ∀ username ∈ exempt, IsRoleName username)
    (distinct : exempt.Nodup) (complete : (read exempt).overflow = 0)
    (cache : BypassCache) {encoded : EncodedUsername} :
    ((read exempt).install cache).1.Holds encoded ↔
      ∃ username ∈ exempt, encoded = encodeUsername username := by
  have fits := ((overflow_read_eq_zero_iff exempt).mp complete).1
  have selectedDistinct : (select (· ≤ ·) bypassCacheSize exempt).Nodup := by
    rw [← List.map_id (select (· ≤ ·) bypassCacheSize exempt)]
    exact select_map_nodup (by rwa [List.map_id])
  have preparedDistinct : (read exempt).prepared.Nodup := by
    rw [read_prepared roles]
    apply selectedDistinct.map_on
    intro left leftMember right rightMember
    exact encodeUsername_injective (roles left (mem_of_mem_select leftMember))
      (roles right (mem_of_mem_select rightMember))
  have room : (read exempt).prepared.length ≤ bypassCacheSize := by
    rw [read_prepared roles, List.length_map, select_length]
    exact Nat.min_le_left ..
  refine (BypassCache.holds_applyRefreshed cache _ _ _ preparedDistinct
    room).trans ?_
  rw [read_prepared roles, List.mem_map]
  constructor
  · intro given
    rcases given with ⟨⟨username, selected, rfl⟩, _⟩
    exact ⟨username, mem_of_mem_select selected, rfl⟩
  · intro given
    rcases given with ⟨username, member, rfl⟩
    exact ⟨⟨username, mem_select fits member, rfl⟩,
      encodeUsername_not_free (roles username member)⟩

end BypassSnapshot

end PasswordProfile.Bypass
