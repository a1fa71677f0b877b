import PasswordProfile.PendingCacheOp.SavepointAlgebra

/-! # Applying the staged work

At commit every savepoint has been adopted by the top level, and each entry
left is turned into at most one call on the lock cache and one on the expiry
cache.
-/

namespace PasswordProfile.PendingCacheOp

open Execution

def stage (username : EncodedUsername) (decision : CacheDecision) : Action :=
  .stageEntry ⟨username, some decision, .none⟩

def stageExpiry (username : EncodedUsername) (expiry : ExpiryDecision) :
    Action :=
  .stageEntry ⟨username, none, expiry⟩

def stageCombined (username : EncodedUsername) (decision : CacheDecision)
    (expiry : ExpiryDecision) : Action :=
  .stageEntry ⟨username, some decision, expiry⟩

/-- The calls that `apply_all` makes on the two caches. -/
inductive CacheCall
  | lock (username : EncodedUsername) (decision : CacheDecision)
  | expiry (username : EncodedUsername) (decision : ExpiryDecision)
  deriving DecidableEq, Repr

def PendingEntry.lockCalls (entry : PendingEntry) : List CacheCall :=
  match entry.decision with
  | none => []
  | some decision => [.lock entry.username decision]

def PendingEntry.expiryCalls (entry : PendingEntry) : List CacheCall :=
  match entry.expiry with
  | .none => []
  | .set mustChangeBy generation graceRemaining =>
      [.expiry entry.username (.set mustChangeBy generation graceRemaining)]
  | .clear => [.expiry entry.username .clear]

def applyAll (pending : PendingState) : List CacheCall :=
  pending.entryList.flatMap fun entry => entry.lockCalls ++ entry.expiryCalls

theorem applyAll_of_holds {pending : PendingState} {items : List PendingEntry}
    (holds : pending.Holds items) :
    applyAll pending =
      items.flatMap fun entry => entry.lockCalls ++ entry.expiryCalls := by
  rw [applyAll, holds.entryList_eq]

def CacheCall.lockDecision (username : EncodedUsername) :
    CacheCall → Option CacheDecision
  | .lock target decision => if target = username then some decision else none
  | .expiry _ _ => none

def CacheCall.expiryDecision (username : EncodedUsername) :
    CacheCall → Option ExpiryDecision
  | .lock _ _ => none
  | .expiry target decision =>
      if target = username then some decision else none

def ExpiryDecision.effective (expiry : ExpiryDecision) :
    Option ExpiryDecision :=
  if expiry = .none then Option.none else some expiry

namespace Transaction

def survivingFor (transaction : Transaction) (username : EncodedUsername) :
    List StagedEntry :=
  transaction.surviving.filter fun staged => staged.username = username

/-- The last call for every user on either cache is the last surviving decision
staged for that cache, and there is none when nothing was staged for it. -/
def BothHalvesSurvive (transaction : Transaction) : Prop :=
  ∀ username,
    ((applyAll transaction.pending).filterMap
        (CacheCall.lockDecision username)).getLast? =
      ((transaction.survivingFor username).filterMap
        StagedEntry.decision).getLast? ∧
    ((applyAll transaction.pending).filterMap
        (CacheCall.expiryDecision username)).getLast? =
      ((transaction.survivingFor username).filterMap
        fun staged => staged.expiry.effective).getLast?

/-- The last surviving operation of every user carries each half that some
surviving operation of the user carries. -/
def LastCarriesAll (transaction : Transaction) : Prop :=
  ∀ username, ∀ last ∈ transaction.lastStaged username,
    ((∃ staged ∈ transaction.survivingFor username,
        staged.decision.isSome) → last.decision.isSome) ∧
      ((∃ staged ∈ transaction.survivingFor username,
        staged.expiry.effective.isSome) → last.expiry.effective.isSome)

end Transaction

/-! ## One entry for each user -/

theorem lockDecision_calls (username : EncodedUsername)
    (entry : PendingEntry) :
    (entry.lockCalls ++ entry.expiryCalls).filterMap
        (CacheCall.lockDecision username) =
      if entry.username = username then entry.decision.toList else [] := by
  rcases entry with ⟨owner, decision, expiry, subid⟩
  by_cases isUser : owner = username <;> cases decision <;> cases expiry <;>
    simp [PendingEntry.lockCalls, PendingEntry.expiryCalls,
      CacheCall.lockDecision, isUser]

theorem expiryDecision_calls (username : EncodedUsername)
    (entry : PendingEntry) :
    (entry.lockCalls ++ entry.expiryCalls).filterMap
        (CacheCall.expiryDecision username) =
      if entry.username = username then entry.expiry.effective.toList
      else [] := by
  rcases entry with ⟨owner, decision, expiry, subid⟩
  by_cases isUser : owner = username <;> cases decision <;> cases expiry <;>
    simp [PendingEntry.lockCalls, PendingEntry.expiryCalls,
      List.filterMap_cons, CacheCall.expiryDecision,
      ExpiryDecision.effective, isUser]

theorem filterMap_calls {called : CacheCall → Option β}
    {half : PendingEntry → Option β} {username : EncodedUsername}
    (calls : ∀ entry : PendingEntry,
      (entry.lockCalls ++ entry.expiryCalls).filterMap called =
        if entry.username = username then (half entry).toList else [])
    (entries : List PendingEntry) :
    (entries.flatMap fun entry =>
        entry.lockCalls ++ entry.expiryCalls).filterMap called =
      (entries.filter fun entry => entry.username = username).filterMap
        half := by
  induction entries with
  | nil => rfl
  | cons entry rest induction =>
      rw [List.flatMap_cons, List.filterMap_append, calls, induction,
        List.filter_cons]
      by_cases isUser : entry.username = username
      · cases value : half entry <;> simp [isUser, value]
      · simp [isUser]

theorem Tracks.filter_closed {transaction : Transaction}
    (tracks : Tracks transaction) (closed : transaction.outer = [])
    (username : EncodedUsername) :
    transaction.pending.entryList.filter
        (fun entry => entry.username = username) =
      ((transaction.lastStaged username).map
        (·.at transaction.current.subid)).toList := by
  rcases tracks.entries with ⟨items, holds, filtered⟩
  rw [holds.entryList_eq, filtered username]
  simp only [Transaction.frames, closed, view, List.nil_append]
  congr 2
  simp [Transaction.lastStaged, Transaction.surviving, Transaction.frames,
    closed, Frame.latest]

/-- Reading a half off the last element misses nothing exactly when the last
element has it or no element does. -/
theorem getLast?_filterMap_eq_bind (half : α → Option β) (items : List α) :
    items.getLast?.bind half = (items.filterMap half).getLast? ↔
      ∀ last ∈ items.getLast?,
        (∃ item ∈ items, (half item).isSome) → (half last).isSome := by
  rcases List.eq_nil_or_concat items with rfl | ⟨init, last, rfl⟩
  · simp
  rw [List.concat_eq_append, List.getLast?_concat, List.filterMap_append,
    List.getLast?_append]
  cases carried : half last with
  | some value => simp [carried]
  | none =>
      simp only [Option.bind_some, carried, List.filterMap_cons,
        List.filterMap_nil, List.getLast?_nil, Option.none_or,
        Option.mem_some_iff, forall_eq', Option.isSome_none,
        Bool.false_eq_true, imp_false, not_exists, not_and,
        Bool.not_eq_true, Option.isSome_eq_false_iff, Option.isNone_iff_eq_none]
      rw [eq_comm, List.getLast?_eq_none_iff, List.filterMap_eq_nil_iff]
      constructor
      · intro missing item member
        rcases List.mem_append.mp member with earlier | here
        · exact missing item earlier
        · rw [List.mem_singleton.mp here]
          exact carried
      · intro missing item member
        exact missing item (List.mem_append_left _ member)

/-- At the commit of a transaction both halves of every user's staged work land
exactly when the last surviving operation of each user carries every half that
was staged for it. -/
theorem commit_bothHalves_iff {top : SubTransactionId}
    {actions : List Action} {transaction : Transaction}
    (completed : Transaction.machine.run (.start top) actions =
      some transaction) (closed : transaction.outer = []) :
    transaction.BothHalvesSurvive ↔ transaction.LastCarriesAll := by
  have tracks := tracks_run completed
  have lockCalls : ∀ username, ((applyAll transaction.pending).filterMap
      (CacheCall.lockDecision username)).getLast? =
        (transaction.survivingFor username).getLast?.bind
          StagedEntry.decision := by
    intro username
    rw [applyAll, filterMap_calls (lockDecision_calls username),
      tracks.filter_closed closed]
    change _ = (transaction.lastStaged username).bind StagedEntry.decision
    cases transaction.lastStaged username with
    | none => rfl
    | some last => cases half : last.decision <;> simp [StagedEntry.at, half]
  have expiryCalls : ∀ username, ((applyAll transaction.pending).filterMap
      (CacheCall.expiryDecision username)).getLast? =
        (transaction.survivingFor username).getLast?.bind
          fun staged => staged.expiry.effective := by
    intro username
    rw [applyAll, filterMap_calls (expiryDecision_calls username),
      tracks.filter_closed closed]
    change _ = (transaction.lastStaged username).bind _
    cases transaction.lastStaged username with
    | none => rfl
    | some last =>
        cases half : last.expiry.effective <;> simp [StagedEntry.at, half]
  apply forall_congr'
  intro username
  rw [lockCalls, expiryCalls, getLast?_filterMap_eq_bind,
    getLast?_filterMap_eq_bind]
  change _ ↔ ∀ last ∈ (transaction.survivingFor username).getLast?, _
  exact ⟨fun halves last member => ⟨halves.1 last member, halves.2 last member⟩,
    fun both => ⟨fun last member => (both last member).1,
      fun last member => (both last member).2⟩⟩

/-- An unlock, then a password change of the same role. -/
def unlockThenPasswordChange : List Action :=
  [stage (encodeUsername "alice") .clearLock,
    stageExpiry (encodeUsername "alice") (.set 9 4 3)]

/-- The unlock never reaches the lock cache. -/
theorem unlockThenPasswordChange_loses_unlock :
    ∃ transaction,
      Transaction.machine.run (.start 1) unlockThenPasswordChange =
        some transaction ∧ transaction.outer = [] ∧
      transaction.surviving.length = 2 ∧
      applyAll transaction.pending =
        [.expiry (encodeUsername "alice") (.set 9 4 3)] ∧
      ¬transaction.BothHalvesSurvive := by
  refine ⟨_, rfl, rfl, rfl, by decide, ?_⟩
  intro both
  exact absurd (both (encodeUsername "alice")).1 (by decide)

/-- Decisions for different roles, and both halves staged together. -/
def combinedStaging : List Action :=
  [stage (encodeUsername "alice") (.setLock 5), .startSavepoint 2,
    stageExpiry (encodeUsername "bob") .clear,
    stageCombined (encodeUsername "alice") .clearLock (.set 9 4 3),
    .commitSavepoint]

theorem combinedStaging_bothHalves :
    ∃ transaction,
      Transaction.machine.run (.start 1) combinedStaging =
        some transaction ∧ transaction.outer = [] ∧
      (transaction.BothHalvesSurvive ↔ transaction.LastCarriesAll) := by
  have completed : Transaction.machine.run (.start 1) combinedStaging =
      some _ := rfl
  exact ⟨_, rfl, rfl, commit_bothHalves_iff completed rfl⟩

end PasswordProfile.PendingCacheOp
