import PasswordProfile.Foundation.Execution
import PasswordProfile.Foundation.Selection
import PasswordProfile.Expiry.Cache

/-! # The expiry cache as a map with atomic grace consumption

Every operation runs in one exclusive lock section, so any number of logins and
commits is a sequence of operations. For every user the grace logins that were
consumed are exactly those missing from the count last installed.
-/

namespace PasswordProfile.Expiry

open AuthEvent Execution SlotTable
open Lockout (CacheOpStatus)

namespace ExpiryCache

/-! ## What the operations do to the entries -/

def Nonnegative (cache : ExpiryCache) : Prop :=
  ∀ slot, 0 ≤ (cache.entries slot).graceRemaining

theorem nonnegative_update {cache : ExpiryCache}
    (nonnegative : cache.Nonnegative) (slot : Fin expiryCacheSize)
    {entry : ExpiryEntry} (positive : 0 ≤ entry.graceRemaining) :
    ∀ other, 0 ≤
      (Function.update cache.entries slot entry other).graceRemaining := by
  intro other
  by_cases here : other = slot
  · rw [here, Function.update_self]
    exact positive
  · rw [Function.update_of_ne here]
    exact nonnegative other

/-- An operation that concerns one user only: its entry is now `value`. -/
structure Concerns (cache after : ExpiryCache) (username : EncodedUsername)
    (value : Option ExpiryEntry) : Prop where
  wellFormed : after.WellFormed
  here : after.held username = value
  others : ∀ other, other ≠ username → after.held other = cache.held other
  nonnegative : cache.Nonnegative → after.Nonnegative

theorem held_used {cache : ExpiryCache} (wellFormed : cache.WellFormed)
    {username : EncodedUsername} {entry : ExpiryEntry}
    (held : cache.held username = some entry) :
    entry.username.isFree = false := by
  rcases wellFormed.contents_eq_some_iff.mp held with ⟨_, _, owned⟩
  exact (ExpiryEntry.owner_eq_some_iff.mp owned).1

theorem held_free (cache : ExpiryCache) {username : EncodedUsername}
    (free : username.isFree = true) : cache.held username = none := by
  apply contents_eq_none_iff.mpr
  intro slot owned
  rcases ExpiryEntry.owner_eq_some_iff.mp owned with ⟨used, rfl⟩
  rw [free] at used
  cases used

/-- Everything `set_entry` can do: it installs the entry, or it is refused and
the user has none. -/
theorem WellFormed.setEntry_cases {cache : ExpiryCache}
    (wellFormed : cache.WellFormed) (username : EncodedUsername)
    (mustChangeBy generation : TimestampTz) (graceRemaining : Int) :
    ((cache.setEntry username mustChangeBy generation graceRemaining).2 =
          .applied ∧
        cache.Concerns
          (cache.setEntry username mustChangeBy generation graceRemaining).1
          username (some
            ⟨username, mustChangeBy, generation, max graceRemaining 0⟩)) ∨
      ((cache.setEntry username mustChangeBy generation graceRemaining).2 =
          .overflowed ∧
        (cache.setEntry username mustChangeBy generation
          graceRemaining).1.entries = cache.entries ∧
        cache.held username = none ∧
        (username.isFree = false →
          (cache.setEntry username mustChangeBy generation
            graceRemaining).1.readState = .overflow)) := by
  rw [setEntry]
  by_cases free : username.isFree = true
  · rw [if_pos free]
    exact .inr ⟨rfl, rfl, cache.held_free free, fun used => by
      rw [free] at used
      cases used⟩
  rw [if_neg free]
  have used := Bool.eq_false_of_not_eq_true free
  rcases @place_cases _ _ _ _ ExpiryEntry.owner
      (fun entry => entry.username.isFree) cache.entries username
      ⟨username, mustChangeBy, generation, max graceRemaining 0⟩ with
    ⟨slot, placed, _⟩ | ⟨refused, _, missing⟩
  · have owned : (ExpiryEntry.mk username mustChangeBy generation
        (max graceRemaining 0)).owner = some username :=
      ExpiryEntry.owner_eq_some_iff.mpr ⟨used, rfl⟩
    rcases place_spec wellFormed owned placed with ⟨unshared, here, others⟩
    rw [placed]
    refine .inl ⟨rfl, unshared, here, fun other different => ?_,
      fun nonnegative => nonnegative_update nonnegative slot
        (le_max_right _ _)⟩
    rcases others other different with same | ⟨_, old, lost, spare⟩
    · exact same
    · have live := held_used wellFormed lost
      rw [live] at spare
      cases spare
  · rw [refused]
    exact .inr ⟨rfl, rfl, contents_eq_none_iff.mpr missing, fun _ => rfl⟩

theorem WellFormed.clearEntry_concerns {cache : ExpiryCache}
    (wellFormed : cache.WellFormed) (username : EncodedUsername) :
    cache.Concerns (cache.clearEntry username).1 username none := by
  rcases @release_spec _ _ _ _ _ cache.entries username .empty wellFormed
    ExpiryEntry.owner_empty with ⟨unshared, gone, others⟩
  refine ⟨unshared, gone, others, fun nonnegative => ?_⟩
  change ∀ slot, 0 ≤ (release ExpiryEntry.owner .empty cache.entries username
    slot).graceRemaining
  rw [release]
  cases slotOf ExpiryEntry.owner cache.entries username with
  | none => exact nonnegative
  | some slot => exact nonnegative_update nonnegative slot (le_refl 0)

theorem nonnegative_applyHydrated (cache : ExpiryCache)
    {prepared : List ExpiryEntry} (rows overflow : Int)
    (newState : ExpiryCacheState)
    (positive : ∀ entry ∈ prepared, 0 ≤ entry.graceRemaining) :
    (cache.applyHydrated prepared rows overflow newState).1.Nonnegative := by
  intro slot
  change 0 ≤ ((fillFrom installs prepared 0 fun _ => .empty).1
    slot).graceRemaining
  rw [fillFrom_cells, if_neg (Nat.not_lt_zero _)]
  cases found : (prepared.filter installs)[slot.val - 0]? with
  | none => exact le_refl 0
  | some entry =>
      have member := List.mem_of_getElem? found
      exact positive entry (List.mem_of_mem_filter member)

theorem WellFormed.consumes {cache : ExpiryCache}
    (wellFormed : cache.WellFormed) {attempt : GraceAttempt}
    {username : EncodedUsername} {flags : EventFlags}
    {slot : Fin expiryCacheSize}
    (taken : attempt.TakesFrom cache username flags slot) :
    cache.held username = some (cache.entries slot) ∧
      cache.Concerns attempt.cache username (some { cache.entries slot with
        graceRemaining := (cache.entries slot).graceRemaining - 1 }) := by
  have owned := owner_of_slotOf taken.found
  rcases wellFormed.takeGrace { cache.entries slot with
      graceRemaining := (cache.entries slot).graceRemaining - 1 } owned
    rfl with ⟨unshared, after⟩
  have grace := taken.grace
  constructor
  · rw [held, contents, taken.found]
    rfl
  · rw [taken.cache]
    refine ⟨unshared, ?_, fun other different => ?_, fun nonnegative =>
      nonnegative_update nonnegative slot (by dsimp only; omega)⟩
    · exact (after username).trans (if_pos rfl)
    · exact (after other).trans (if_neg different)

end ExpiryCache

/-! ## Runs of the operations -/

/-- The entries that a hydration prepares: of different users, as
`prepared_entry` builds them, and no more than its `LIMIT`. -/
structure PreparedExpiry where
  entries : List ExpiryEntry
  distinct : (entries.map ExpiryEntry.username).Nodup
  nonnegative : ∀ entry ∈ entries, 0 ≤ entry.graceRemaining
  fits : entries.length ≤ expiryCacheSize

def PreparedExpiry.entryOf (prepared : PreparedExpiry)
    (username : EncodedUsername) : Option ExpiryEntry :=
  if username.isFree then none
  else prepared.entries.find? (·.username == username)

inductive ExpiryOperation
  | setEntry (username : EncodedUsername)
      (mustChangeBy generation : TimestampTz) (graceRemaining : Int)
  | clearEntry (username : EncodedUsername)
  | applyHydrated (prepared : PreparedExpiry) (rows overflow : Int)
      (newState : ExpiryCacheState)
  | setState (newState : ExpiryCacheState)
  | tryConsumeGrace (username : String) (now : TimestampTz)
      (flags : EventFlags) (step : EnqueueStep)

/-- The count of an entry; a user without one has no grace logins. -/
def graceOf (entry : Option ExpiryEntry) : Int :=
  (entry.map ExpiryEntry.graceRemaining).getD 0

/-- The cache, beside the count that was last installed for every user and the
grace logins that were consumed since. -/
structure GraceLedger where
  cache : ExpiryCache
  installed : EncodedUsername → Int
  consumed : EncodedUsername → Nat

namespace GraceLedger

def init : GraceLedger where
  cache := .init
  installed := fun _ => 0
  consumed := fun _ => 0

def reinstall (ledger : GraceLedger) (cache : ExpiryCache)
    (username : EncodedUsername) (count : Int) : GraceLedger where
  cache
  installed := Function.update ledger.installed username count
  consumed := Function.update ledger.consumed username 0

def perform (ledger : GraceLedger) : ExpiryOperation → GraceLedger
  | .setEntry username mustChangeBy generation graceRemaining =>
      let (cache, status) := ledger.cache.setEntry username mustChangeBy
        generation graceRemaining
      ledger.reinstall cache username
        (if status = .applied then max graceRemaining 0 else 0)
  | .clearEntry username =>
      ledger.reinstall (ledger.cache.clearEntry username).1 username 0
  | .applyHydrated prepared rows overflow newState =>
      { cache := (ledger.cache.applyHydrated prepared.entries rows overflow
          newState).1
        installed := fun username => graceOf (prepared.entryOf username)
        consumed := fun _ => 0 }
  | .setState newState =>
      { ledger with cache := ledger.cache.setState newState }
  | .tryConsumeGrace username now flags step =>
      let attempt := ledger.cache.tryConsumeGrace username now flags step
      let encoded := encodeUsername username
      { ledger with
        cache := attempt.cache
        consumed :=
          if attempt.result.outcome = .consumed then
            Function.update ledger.consumed encoded
              (ledger.consumed encoded + 1)
          else ledger.consumed }

def machine : Machine GraceLedger ExpiryOperation where
  step ledger operation := some (ledger.perform operation)

/-- What holds of the cache in every state, and of every operation on it. -/
structure IsGraceMap (ledger : GraceLedger) : Prop where
  distinct : ∀ first second,
    (ledger.cache.entries first).username.isFree = false →
    (ledger.cache.entries first).username =
      (ledger.cache.entries second).username → first = second
  nonnegative : ledger.cache.Nonnegative
  refused : ∀ username mustChangeBy generation graceRemaining,
    username.isFree = false →
    (ledger.cache.setEntry username mustChangeBy generation
      graceRemaining).2 = .overflowed →
    (ledger.cache.setEntry username mustChangeBy generation
        graceRemaining).1.entries = ledger.cache.entries ∧
      (ledger.cache.setEntry username mustChangeBy generation
        graceRemaining).1.readState = .overflow
  setKeepsOthers : ∀ username mustChangeBy generation graceRemaining other,
    other ≠ username →
    (ledger.cache.setEntry username mustChangeBy generation
      graceRemaining).1.held other = ledger.cache.held other
  clearKeepsOthers : ∀ username other, other ≠ username →
    (ledger.cache.clearEntry username).1.held other = ledger.cache.held other
  attempts : ∀ username now flags step,
    (step.outcome.isDurable = true ∧ ∃ slot,
        (ledger.cache.tryConsumeGrace username now flags step).TakesFrom
          ledger.cache (encodeUsername username) flags slot) ∨
      (ledger.cache.tryConsumeGrace username now flags step).Declines
        ledger.cache (encodeUsername username) flags step.outcome.isDurable
  balance : ∀ username,
    (ledger.consumed username : Int) =
      ledger.installed username - graceOf (ledger.cache.held username)
  bounded : ∀ username,
    (ledger.consumed username : Int) ≤ ledger.installed username

structure Balanced (ledger : GraceLedger) : Prop where
  wellFormed : ledger.cache.WellFormed
  nonnegative : ledger.cache.Nonnegative
  balance : ∀ username,
    (ledger.consumed username : Int) =
      ledger.installed username - graceOf (ledger.cache.held username)

variable {ledger : GraceLedger}

theorem balanced_init : init.Balanced where
  wellFormed := ExpiryCache.wellFormed_init
  nonnegative := fun _ => le_refl 0
  balance username := by
    change ((0 : Nat) : Int) = 0 - graceOf (ExpiryCache.init.held username)
    rw [ExpiryCache.held_init]
    rfl

theorem graceOf_held_nonneg (nonnegative : ledger.cache.Nonnegative)
    (username : EncodedUsername) :
    0 ≤ graceOf (ledger.cache.held username) := by
  cases held : ledger.cache.held username with
  | none => exact le_refl 0
  | some entry =>
      rcases Option.map_eq_some_iff.mp held with ⟨slot, _, rfl⟩
      exact nonnegative slot

theorem Balanced.isGraceMap (balanced : ledger.Balanced) :
    ledger.IsGraceMap where
  distinct first second used same := by
    have owns := ExpiryEntry.owner_eq_some_iff.mpr ⟨used, rfl⟩
    have alsoOwns := ExpiryEntry.owner_eq_some_iff.mpr ⟨same ▸ used, same.symm⟩
    exact balanced.wellFormed first second _ owns alsoOwns
  nonnegative := balanced.nonnegative
  refused username mustChangeBy generation graceRemaining used overflowed := by
    rcases balanced.wellFormed.setEntry_cases username mustChangeBy generation
      graceRemaining with ⟨applied, _⟩ | ⟨_, same, _, stored⟩
    · rw [applied] at overflowed
      cases overflowed
    · exact ⟨same, stored used⟩
  setKeepsOthers username mustChangeBy generation graceRemaining other
      different := by
    rcases balanced.wellFormed.setEntry_cases username mustChangeBy generation
      graceRemaining with ⟨_, concerns⟩ | ⟨_, same, _⟩
    · exact concerns.others other different
    · rw [ExpiryCache.held, same]
      rfl
  clearKeepsOthers username other different :=
    (balanced.wellFormed.clearEntry_concerns username).others other different
  attempts := ledger.cache.tryConsumeGrace_slots
  balance := balanced.balance
  bounded username := by
    have balance := balanced.balance username
    have current := graceOf_held_nonneg balanced.nonnegative username
    omega

/-! ## Every operation keeps the balance -/

theorem Balanced.reinstall (balanced : ledger.Balanced) {cache : ExpiryCache}
    {username : EncodedUsername} {value : Option ExpiryEntry}
    (concerns : ledger.cache.Concerns cache username value) {count : Int}
    (counted : count = graceOf value) :
    (ledger.reinstall cache username count).Balanced where
  wellFormed := concerns.wellFormed
  nonnegative := concerns.nonnegative balanced.nonnegative
  balance other := by
    simp only [GraceLedger.reinstall]
    by_cases here : other = username
    · subst here
      rw [Function.update_self, Function.update_self, concerns.here, counted]
      simp
    · rw [Function.update_of_ne here, Function.update_of_ne here,
        concerns.others other here]
      exact balanced.balance other

theorem Balanced.setEntry (balanced : ledger.Balanced)
    (username : EncodedUsername) (mustChangeBy generation : TimestampTz)
    (graceRemaining : Int) :
    (ledger.perform (.setEntry username mustChangeBy generation
      graceRemaining)).Balanced := by
  simp only [perform]
  rcases balanced.wellFormed.setEntry_cases username mustChangeBy generation
    graceRemaining with ⟨applied, concerns⟩ | ⟨refused, same, missing, _⟩
  · rw [applied, if_pos rfl]
    exact balanced.reinstall concerns rfl
  · rw [refused, if_neg (by simp)]
    have unchanged : ledger.cache.Concerns
        (ledger.cache.setEntry username mustChangeBy generation
          graceRemaining).1 username none := by
      refine ⟨?_, ?_, fun other _ => ?_, fun nonnegative => ?_⟩
      · rw [ExpiryCache.WellFormed, same]
        exact balanced.wellFormed
      · rw [ExpiryCache.held, same]
        exact missing
      · rw [ExpiryCache.held, same]
        rfl
      · rw [ExpiryCache.Nonnegative, same]
        exact nonnegative
    exact balanced.reinstall unchanged rfl

theorem PreparedExpiry.entryOf_eq_held (prepared : PreparedExpiry)
    (cache : ExpiryCache) (rows overflow : Int) (newState : ExpiryCacheState)
    (username : EncodedUsername) :
    (cache.applyHydrated prepared.entries rows overflow newState).1.held
      username = prepared.entryOf username := by
  refine Option.ext fun entry => ?_
  rw [(cache.applyHydrated_spec rows overflow newState prepared.distinct
    prepared.fits).2, ExpiryEntry.owner_eq_some_iff, PreparedExpiry.entryOf]
  by_cases free : username.isFree = true
  · rw [if_pos free]
    simp only [reduceCtorEq, iff_false]
    intro given
    rcases given with ⟨_, used, rfl⟩
    rw [free] at used
    cases used
  · rw [if_neg free, Selection.find?_key_eq_some_iff prepared.distinct]
    apply and_congr_right
    intro _
    constructor
    · exact fun given => given.2
    · intro same
      subst same
      exact ⟨Bool.eq_false_of_not_eq_true free, rfl⟩

theorem Balanced.applyHydrated (prepared : PreparedExpiry)
    (rows overflow : Int) (newState : ExpiryCacheState) :
    (ledger.perform (.applyHydrated prepared rows overflow
      newState)).Balanced where
  wellFormed := (ledger.cache.applyHydrated_spec rows overflow newState
    prepared.distinct prepared.fits).1
  nonnegative := ledger.cache.nonnegative_applyHydrated rows overflow newState
    prepared.nonnegative
  balance username := by
    simp only [perform, PreparedExpiry.entryOf_eq_held]
    simp

theorem Balanced.tryConsumeGrace (balanced : ledger.Balanced)
    (username : String) (now : TimestampTz) (flags : EventFlags)
    (step : EnqueueStep) :
    (ledger.perform (.tryConsumeGrace username now flags step)).Balanced := by
  simp only [perform]
  rcases ledger.cache.tryConsumeGrace_slots username now flags step with
    ⟨_, slot, taken⟩ | declined
  · rcases balanced.wellFormed.consumes taken with ⟨held, concerns⟩
    rw [if_pos taken.outcome]
    refine ⟨concerns.wellFormed, concerns.nonnegative balanced.nonnegative,
      fun other => ?_⟩
    dsimp only
    by_cases here : other = encodeUsername username
    · subst here
      have balance := balanced.balance (encodeUsername username)
      rw [held] at balance
      rw [Function.update_self, concerns.here]
      simp only [graceOf, Option.map_some, Option.getD_some] at balance ⊢
      omega
    · rw [Function.update_of_ne here, concerns.others other here]
      exact balanced.balance other
  · rw [if_neg declined.outcome, declined.unchanged]
    exact balanced

theorem Balanced.step {operation : ExpiryOperation} {next : GraceLedger}
    (balanced : ledger.Balanced)
    (stepped : machine.step ledger operation = some next) : next.Balanced := by
  cases stepped
  cases operation with
  | setEntry username mustChangeBy generation graceRemaining =>
      exact balanced.setEntry username mustChangeBy generation graceRemaining
  | clearEntry username =>
      exact balanced.reinstall
        (balanced.wellFormed.clearEntry_concerns username) rfl
  | applyHydrated prepared rows overflow newState =>
      exact Balanced.applyHydrated prepared rows overflow newState
  | setState newState =>
      exact ⟨balanced.wellFormed, balanced.nonnegative, balanced.balance⟩
  | tryConsumeGrace username now flags step =>
      exact balanced.tryConsumeGrace username now flags step

/-- In every run of the operations the cache is a map, and the grace logins of
every user balance. -/
theorem run_isGraceMap {operations : List ExpiryOperation}
    (completed : machine.run init operations = some ledger) :
    ledger.IsGraceMap :=
  (Machine.run_invariant (fun balanced stepped => balanced.step stepped)
    balanced_init completed).isGraceMap

/-- Two logins of `alice` after a hydration that gave her one grace login. -/
theorem run_isGraceMap_alice :
    ∃ ledger, machine.run init
        [.applyHydrated ⟨[⟨encodeUsername "alice", 5, 1, 1⟩],
            List.nodup_singleton _,
            List.forall_mem_singleton.mpr (by decide), by decide +kernel⟩
            1 0 .ready,
          .tryConsumeGrace "alice" 10 .none ⟨.enqueued, false⟩,
          .tryConsumeGrace "alice" 11 .none ⟨.enqueued, false⟩] =
        some ledger ∧
      ledger.IsGraceMap ∧ ledger.consumed (encodeUsername "alice") = 1 ∧
      graceOf (ledger.cache.held (encodeUsername "alice")) = 0 := by
  have summary : (machine.run init
      [.applyHydrated ⟨[⟨encodeUsername "alice", 5, 1, 1⟩],
          List.nodup_singleton _,
          List.forall_mem_singleton.mpr (by decide), by decide +kernel⟩
          1 0 .ready,
        .tryConsumeGrace "alice" 10 .none ⟨.enqueued, false⟩,
        .tryConsumeGrace "alice" 11 .none ⟨.enqueued, false⟩]).map
        (fun ledger => (ledger.consumed (encodeUsername "alice"),
          ledger.installed (encodeUsername "alice"))) = some (1, 1) := by
    decide +kernel
  rcases Option.map_eq_some_iff.mp summary with ⟨ledger, completed, read⟩
  have isMap := run_isGraceMap completed
  have consumed : ledger.consumed (encodeUsername "alice") = 1 :=
    congrArg Prod.fst read
  have installed : ledger.installed (encodeUsername "alice") = 1 :=
    congrArg Prod.snd read
  refine ⟨ledger, completed, isMap, consumed, ?_⟩
  have balance := isMap.balance (encodeUsername "alice")
  rw [consumed, installed] at balance
  omega

end GraceLedger

end PasswordProfile.Expiry
