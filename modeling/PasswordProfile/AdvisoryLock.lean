import Mathlib.Data.List.Sort
import Mathlib.Data.Prod.Lex
import Mathlib.Data.String.Basic
import PasswordProfile.AuthEvent.Event
import PasswordProfile.Foundation.LockTable

/-! # The per-user advisory locks

Two namespaces of transaction locks, one for `login_attempts` and one for
`password_history`. The functions that move or remove the state of a role take
all of the first before any of the second; the worker takes them the other way
round when a grace login also clears failed logins.
-/

namespace PasswordProfile.AdvisoryLock

open AuthEvent (EventKind)
open Execution LockTable

inductive Namespace
  | loginAttempt
  | passwordHistory
  deriving DecidableEq, Repr

structure Resource where
  lockNamespace : Namespace
  username : String
  deriving DecidableEq, Repr

def lockLoginAttemptsFor (username : String) : Resource :=
  ⟨.loginAttempt, username⟩

def lockPasswordHistoryFor (username : String) : Resource :=
  ⟨.passwordHistory, username⟩

def lockRoleStateNames (first : String) (second : Option String) :
    List Resource :=
  let names := (first :: (second.filter (· ≠ first)).toList).insertionSort
    (· ≤ ·)
  names.map lockLoginAttemptsFor ++ names.map lockPasswordHistoryFor

inductive Body
  | event (kind : EventKind) (clears : Bool) (username : String)
  | recordFailedLogin (username : String)
  | clearLoginAttempts (username : String)
  | recordPasswordChange (username : String)
  | renameRoleState (oldUsername newUsername : String)
  | removeRoleState (username : String)
  deriving DecidableEq, Repr

namespace Body

def locks : Body → List Resource
  | event .failure _ username => [lockLoginAttemptsFor username]
  | event .success clears username =>
      if clears then [lockLoginAttemptsFor username] else []
  | event .graceConsumed clears username =>
      lockPasswordHistoryFor username ::
        if clears then [lockLoginAttemptsFor username] else []
  | recordFailedLogin username => [lockLoginAttemptsFor username]
  | clearLoginAttempts username => [lockLoginAttemptsFor username]
  | recordPasswordChange username => [lockPasswordHistoryFor username]
  | renameRoleState oldUsername newUsername =>
      if oldUsername = newUsername then []
      else lockRoleStateNames oldUsername (some newUsername)
  | removeRoleState username => lockRoleStateNames username none

def usernames : Body → List String
  | event _ _ username => [username]
  | recordFailedLogin username => [username]
  | clearLoginAttempts username => [username]
  | recordPasswordChange username => [username]
  | renameRoleState oldUsername newUsername => [oldUsername, newUsername]
  | removeRoleState username => [username]

/-- The callers of `lock_role_state_names`. -/
def isRoleState : Body → Bool
  | renameRoleState _ _ => true
  | removeRoleState _ => true
  | _ => false

def clearingGrace : Body → Option String
  | event .graceConsumed true username => some username
  | _ => none

end Body

section Protocol

variable (usernameAdvisoryKey : String → Int32)

/-- A lock is the namespace with the key of the username. -/
def protocol : Protocol Body Resource (Namespace × Int32) where
  locks := Body.locks
  lockOf resource :=
    (resource.lockNamespace, usernameAdvisoryKey resource.username)

/-- Any number of transactions about the given usernames. -/
def machine (usernames : List String) (size : Nat) :
    Machine (World size Body) (Action size Body) :=
  (protocol usernameAdvisoryKey).machine
    (fun body => body.usernames.all (· ∈ usernames)) size

def Holds (progress : Progress Body) (resource : Resource) : Prop :=
  ∃ taken ∈ (protocol usernameAdvisoryKey).held progress,
    (protocol usernameAdvisoryKey).lockOf taken =
      (protocol usernameAdvisoryKey).lockOf resource

instance (progress : Progress Body) (resource : Resource) :
    Decidable (Holds usernameAdvisoryKey progress resource) :=
  inferInstanceAs (Decidable
    (∃ taken ∈ (protocol usernameAdvisoryKey).held progress,
      (protocol usernameAdvisoryKey).lockOf taken =
        (protocol usernameAdvisoryKey).lockOf resource))

def betweenLocks (progress : Progress Body) : Option String :=
  if progress.taken = 1 then progress.body.clearingGrace else none

/-- A role-state function is about to take the login lock of a user whose
grace login stands between its two locks. -/
def MeetsGrace (progress holder : Progress Body) : Prop :=
  progress.body.isRoleState = true ∧
    ∃ resource ∈ (protocol usernameAdvisoryKey).next progress,
      ∃ username ∈ betweenLocks holder,
        (protocol usernameAdvisoryKey).lockOf resource =
          (protocol usernameAdvisoryKey).lockOf (lockLoginAttemptsFor username)

/-- A clearing grace login is about to take the history lock of a user of whom
a role-state function has the login lock only. -/
def MeetsRoleState (progress holder : Progress Body) : Prop :=
  progress.taken = 0 ∧ holder.body.isRoleState = true ∧
    ∃ username ∈ progress.body.clearingGrace,
      Holds usernameAdvisoryKey holder (lockLoginAttemptsFor username) ∧
        ¬Holds usernameAdvisoryKey holder (lockPasswordHistoryFor username)

instance (progress holder : Progress Body) :
    Decidable (MeetsGrace usernameAdvisoryKey progress holder) :=
  inferInstanceAs (Decidable (progress.body.isRoleState = true ∧
    ∃ resource ∈ (protocol usernameAdvisoryKey).next progress,
      ∃ username ∈ betweenLocks holder,
        (protocol usernameAdvisoryKey).lockOf resource =
          (protocol usernameAdvisoryKey).lockOf
            (lockLoginAttemptsFor username)))

instance (progress holder : Progress Body) :
    Decidable (MeetsRoleState usernameAdvisoryKey progress holder) :=
  inferInstanceAs (Decidable (progress.taken = 0 ∧
    holder.body.isRoleState = true ∧
      ∃ username ∈ progress.body.clearingGrace,
        Holds usernameAdvisoryKey holder (lockLoginAttemptsFor username) ∧
          ¬Holds usernameAdvisoryKey holder (lockPasswordHistoryFor username)))

/-- The role-state functions and the clearing grace logins do not cross. -/
def AvoidsCrossing {size : Nat} (world : World size Body) :
    Action size Body → Prop
  | .acquire id => ∀ progress ∈ world id, ∀ other, ∀ holder ∈ world other,
      ¬MeetsGrace usernameAdvisoryKey progress holder ∧
        ¬MeetsRoleState usernameAdvisoryKey progress holder
  | _ => True

instance {size : Nat} (world : World size Body) (action : Action size Body) :
    Decidable (AvoidsCrossing usernameAdvisoryKey world action) :=
  match action with
  | .begin _ _ => .isTrue trivial
  | .finish _ => .isTrue trivial
  | .acquire id =>
      inferInstanceAs (Decidable (∀ progress ∈ world id, ∀ other,
        ∀ holder ∈ world other,
          ¬MeetsGrace usernameAdvisoryKey progress holder ∧
            ¬MeetsRoleState usernameAdvisoryKey progress holder))

end Protocol

/-! ## The order of the locks -/

def rank (resource : Resource) : Nat ×ₗ String :=
  match resource.lockNamespace with
  | .loginAttempt => toLex (0, resource.username)
  | .passwordHistory => toLex (1, resource.username)

theorem rank_loginAttempt_lt {left right : String} (before : left < right) :
    rank (lockLoginAttemptsFor left) < rank (lockLoginAttemptsFor right) :=
  Prod.Lex.toLex_lt_toLex.mpr (.inr ⟨rfl, before⟩)

theorem rank_passwordHistory_lt {left right : String} (before : left < right) :
    rank (lockPasswordHistoryFor left) < rank (lockPasswordHistoryFor right) :=
  Prod.Lex.toLex_lt_toLex.mpr (.inr ⟨rfl, before⟩)

theorem rank_login_lt_history (left right : String) :
    rank (lockLoginAttemptsFor left) < rank (lockPasswordHistoryFor right) :=
  Prod.Lex.toLex_lt_toLex.mpr (.inl Nat.zero_lt_one)

theorem lockRoleStateNames_ordered (first : String) (second : Option String) :
    (lockRoleStateNames first second).Pairwise
      fun left right => rank left < rank right := by
  have distinct : (first :: (second.filter (· ≠ first)).toList).Nodup := by
    cases second with
    | none => simp
    | some second =>
        by_cases same : second = first
        · simp [Option.filter_some, same]
        · simp [Option.filter_some, same, Ne.symm same]
  have sorted := List.pairwise_insertionSort (· ≤ ·)
    (first :: (second.filter (· ≠ first)).toList)
  have sortedDistinct := (List.perm_insertionSort (· ≤ ·)
    (first :: (second.filter (· ≠ first)).toList)).nodup_iff.mpr distinct
  have increasing := sorted.and sortedDistinct
  rw [lockRoleStateNames, List.pairwise_append, List.pairwise_map,
    List.pairwise_map]
  refine ⟨?_, ?_, fun login loginMember history historyMember => ?_⟩
  · apply increasing.imp
    intro left right both
    exact rank_loginAttempt_lt (lt_of_le_of_ne both.1 both.2)
  · apply increasing.imp
    intro left right both
    exact rank_passwordHistory_lt (lt_of_le_of_ne both.1 both.2)
  · rcases List.mem_map.mp loginMember with ⟨left, _, rfl⟩
    rcases List.mem_map.mp historyMember with ⟨right, _, rfl⟩
    exact rank_login_lt_history left right

theorem mem_lockRoleStateNames {first : String} {second : Option String}
    {resource : Resource} (member : resource ∈ lockRoleStateNames first second) :
    resource.username = first ∨ second = some resource.username := by
  have named : ∀ name ∈ (first ::
      (second.filter (· ≠ first)).toList).insertionSort (· ≤ ·),
      name = first ∨ second = some name := by
    intro name sorted
    rw [List.mem_insertionSort, List.mem_cons, Option.mem_toList] at sorted
    rcases sorted with same | kept
    · exact .inl same
    · exact .inr (Option.filter_eq_some_iff.mp kept).1
  rcases List.mem_append.mp member with login | history
  · rcases List.mem_map.mp login with ⟨name, sorted, rfl⟩
    exact named name sorted
  · rcases List.mem_map.mp history with ⟨name, sorted, rfl⟩
    exact named name sorted

namespace Body

theorem locks_usernames {body : Body} {resource : Resource}
    (member : resource ∈ body.locks) : resource.username ∈ body.usernames := by
  cases body with
  | event kind clears username =>
      have single : resource = lockPasswordHistoryFor username ∨
          resource = lockLoginAttemptsFor username := by
        cases kind <;> cases clears <;> simp_all [locks]
      rcases single with rfl | rfl <;> exact List.mem_singleton.mpr rfl
  | recordFailedLogin username =>
      rw [List.mem_singleton.mp member]
      exact List.mem_singleton.mpr rfl
  | clearLoginAttempts username =>
      rw [List.mem_singleton.mp member]
      exact List.mem_singleton.mpr rfl
  | recordPasswordChange username =>
      rw [List.mem_singleton.mp member]
      exact List.mem_singleton.mpr rfl
  | renameRoleState oldUsername newUsername =>
      rw [locks] at member
      split at member
      · cases member
      · rcases mem_lockRoleStateNames member with same | same
        · simp [usernames, same]
        · simp [usernames, Option.some.inj same]
  | removeRoleState username =>
      rcases mem_lockRoleStateNames member with same | same
      · simp [usernames, same]
      · cases same

theorem locks_ordered {body : Body} (roleState : body.isRoleState = true) :
    body.locks.Pairwise fun left right => rank left < rank right := by
  cases body with
  | renameRoleState oldUsername newUsername =>
      rw [locks]
      split
      · exact List.Pairwise.nil
      · exact lockRoleStateNames_ordered oldUsername (some newUsername)
  | removeRoleState username => exact lockRoleStateNames_ordered username none
  | event _ _ _ => cases roleState
  | recordFailedLogin _ => cases roleState
  | clearLoginAttempts _ => cases roleState
  | recordPasswordChange _ => cases roleState

theorem locks_clearingGrace {body : Body} {username : String}
    (grace : body.clearingGrace = some username) :
    body.isRoleState = false ∧ body.locks =
      [lockPasswordHistoryFor username, lockLoginAttemptsFor username] := by
  cases body with
  | event kind clears other =>
      cases kind <;> cases clears <;> cases grace
      exact ⟨rfl, rfl⟩
  | _ => cases grace

theorem locks_single {body : Body} (notRoleState : body.isRoleState = false)
    (notGrace : body.clearingGrace = none) : body.locks.length ≤ 1 := by
  cases body with
  | event kind clears username =>
      cases kind <;> cases clears <;> simp_all [locks, clearingGrace]
  | recordFailedLogin _ => exact le_refl 1
  | clearLoginAttempts _ => exact le_refl 1
  | recordPasswordChange _ => exact le_refl 1
  | renameRoleState _ _ => cases notRoleState
  | removeRoleState _ => cases notRoleState

end Body

/-! ## No cycle of waits -/

section Deadlock

variable {usernameAdvisoryKey : String → Int32} {usernames : List String}
  {size : Nat} {world after : World size Body}

/-- Locks are exclusive, and no role-state function has the login lock only of
a user whose grace login stands between its locks. -/
structure Uncrossed (usernameAdvisoryKey : String → Int32)
    (usernames : List String) (world : World size Body) : Prop where
  exclusive : (protocol usernameAdvisoryKey).Exclusive
    (fun body => body.usernames.all (· ∈ usernames)) world
  complete : ∀ id progress other holder, world id = some progress →
    world other = some holder → ∀ username,
      betweenLocks progress = some username →
      holder.body.isRoleState = true →
      Holds usernameAdvisoryKey holder (lockLoginAttemptsFor username) →
      Holds usernameAdvisoryKey holder (lockPasswordHistoryFor username)

theorem uncrossed_empty : Uncrossed usernameAdvisoryKey usernames
    (fun _ : Fin size => none) where
  exclusive := Protocol.exclusive_empty _ size
  complete _ _ _ _ running := by cases running

theorem betweenLocks_eq_some {progress : Progress Body} {username : String}
    (between : betweenLocks progress = some username) :
    progress.taken = 1 ∧ progress.body.clearingGrace = some username := by
  rw [betweenLocks] at between
  split at between
  · next once => exact ⟨once, between⟩
  · cases between

theorem holds_succ {progress : Progress Body} {wanted resource : Resource}
    (next : (protocol usernameAdvisoryKey).next progress = some wanted) :
    Holds usernameAdvisoryKey ⟨progress.body, progress.taken + 1⟩ resource ↔
      Holds usernameAdvisoryKey progress resource ∨
        (protocol usernameAdvisoryKey).lockOf wanted =
          (protocol usernameAdvisoryKey).lockOf resource := by
  simp only [Holds, Protocol.held_succ next, List.mem_append,
    List.mem_singleton]
  constructor
  · intro given
    rcases given with ⟨taken, before | rfl, same⟩
    · exact .inl ⟨taken, before, same⟩
    · exact .inr same
  · intro given
    rcases given with ⟨taken, before, same⟩ | same
    · exact ⟨taken, .inl before, same⟩
    · exact ⟨wanted, .inr rfl, same⟩

theorem Uncrossed.update_idle
    (uncrossed : Uncrossed usernameAdvisoryKey usernames world) (id : Fin size)
    {replacement : Option (Progress Body)}
    (idle : ∀ progress, replacement = some progress → progress.taken = 0)
    (exclusive : (protocol usernameAdvisoryKey).Exclusive
      (fun body => body.usernames.all (· ∈ usernames))
      (Function.update world id replacement)) :
    Uncrossed usernameAdvisoryKey usernames
      (Function.update world id replacement) := by
  refine ⟨exclusive, fun waiter progress other holder running holding username
    between roleState holds => ?_⟩
  by_cases waiterHere : waiter = id
  · rw [waiterHere, Function.update_self] at running
    have none := idle progress running
    have one := (betweenLocks_eq_some between).1
    omega
  rw [Function.update_of_ne waiterHere] at running
  by_cases otherHere : other = id
  · rw [otherHere, Function.update_self] at holding
    rcases holds with ⟨taken, member, _⟩
    rw [Protocol.held, idle holder holding] at member
    simp at member
  · rw [Function.update_of_ne otherHere] at holding
    exact uncrossed.complete waiter progress other holder running holding
      username between roleState holds

theorem Uncrossed.acquire {id : Fin size} {progress : Progress Body}
    {resource : Resource}
    (uncrossed : Uncrossed usernameAdvisoryKey usernames world)
    (avoids : AvoidsCrossing usernameAdvisoryKey world (.acquire id))
    (running : world id = some progress)
    (wanted : (protocol usernameAdvisoryKey).next progress = some resource)
    (exclusive : (protocol usernameAdvisoryKey).Exclusive
      (fun body => body.usernames.all (· ∈ usernames))
      (Function.update world id
        (some ⟨progress.body, progress.taken + 1⟩))) :
    Uncrossed usernameAdvisoryKey usernames (Function.update world id
      (some ⟨progress.body, progress.taken + 1⟩)) := by
  refine ⟨exclusive, fun waiter waiting other holder waits holding username
    between roleState holds => ?_⟩
  have meets := avoids progress running
  by_cases waiterHere : waiter = id
  · -- the grace login has just taken its history lock
    rw [waiterHere, Function.update_self, Option.some.injEq] at waits
    subst waits
    rcases betweenLocks_eq_some between with ⟨once, grace⟩
    by_cases otherHere : other = id
    · rw [otherHere, Function.update_self, Option.some.injEq] at holding
      subst holding
      rw [(Body.locks_clearingGrace grace).1] at roleState
      cases roleState
    · rw [Function.update_of_ne otherHere] at holding
      by_contra missing
      exact (meets other holder holding).2
        ⟨Nat.succ.inj once, roleState, username, grace, holds, missing⟩
  rw [Function.update_of_ne waiterHere] at waits
  by_cases otherHere : other = id
  · rw [otherHere, Function.update_self, Option.some.injEq] at holding
    subst holding
    rcases (holds_succ wanted).mp holds with before | just
    · apply (holds_succ wanted).mpr
      exact .inl (uncrossed.complete waiter waiting id progress waits running
        username between roleState before)
    · exact absurd ⟨roleState, resource, wanted, username, between, just⟩
        (meets waiter waiting waits).1
  · rw [Function.update_of_ne otherHere] at holding
    exact uncrossed.complete waiter waiting other holder waits holding username
      between roleState holds

theorem Uncrossed.step {action : Action size Body}
    (uncrossed : Uncrossed usernameAdvisoryKey usernames world)
    (avoids : AvoidsCrossing usernameAdvisoryKey world action)
    (stepped : (machine usernameAdvisoryKey usernames size).step world action =
      some after) : Uncrossed usernameAdvisoryKey usernames after := by
  have exclusive := uncrossed.exclusive.step stepped
  rcases (protocol usernameAdvisoryKey).step_cases stepped with
    ⟨id, body, rfl, _, rfl⟩ |
      ⟨id, progress, resource, rfl, running, wanted, _, rfl⟩ | ⟨id, rfl, rfl⟩
  · apply uncrossed.update_idle id _ exclusive
    intro progress same
    cases same
    rfl
  · exact uncrossed.acquire avoids running wanted exclusive
  · apply uncrossed.update_idle id _ exclusive
    intro progress same
    cases same

theorem Uncrossed.eq_of_lockOf
    (uncrossed : Uncrossed usernameAdvisoryKey usernames world)
    (injective : ∀ left ∈ usernames, ∀ right ∈ usernames,
      usernameAdvisoryKey left = usernameAdvisoryKey right → left = right)
    {id other : Fin size} {progress holder : Progress Body}
    (running : world id = some progress) (holding : world other = some holder)
    {resource taken : Resource} (member : resource ∈ progress.body.locks)
    (otherMember : taken ∈ holder.body.locks)
    (same : (protocol usernameAdvisoryKey).lockOf taken =
      (protocol usernameAdvisoryKey).lockOf resource) : taken = resource := by
  have involved : ∀ {id progress resource}, world id = some progress →
      resource ∈ progress.body.locks → resource.username ∈ usernames := by
    intro id progress resource running member
    have admitted := uncrossed.exclusive.admitted id progress running
    rw [List.all_eq_true] at admitted
    simpa using admitted _ (Body.locks_usernames member)
  rcases taken with ⟨space, username⟩
  rcases resource with ⟨otherSpace, otherUsername⟩
  simp only [protocol, Prod.mk.injEq] at same
  have sameName := injective _ (involved holding otherMember) _
    (involved running member) same.2
  rw [same.1]
  exact congrArg _ sameName

def awaited (usernameAdvisoryKey : String → Int32) (world : World size Body)
    (id : Fin size) : Option Resource :=
  (world id).bind (protocol usernameAdvisoryKey).next

def AwaitsLater (usernameAdvisoryKey : String → Int32)
    (world : World size Body) (first second : Fin size) : Prop :=
  ∃ earlier later, awaited usernameAdvisoryKey world first = some earlier ∧
    awaited usernameAdvisoryKey world second = some later ∧
    rank earlier < rank later

theorem taken_eq_one {progress : Progress Body} {username : String}
    (grace : progress.body.clearingGrace = some username)
    {taken resource : Resource}
    (member : taken ∈ (protocol usernameAdvisoryKey).held progress)
    (wanted : (protocol usernameAdvisoryKey).next progress = some resource) :
    progress.taken = 1 := by
  have counted : 1 ≤ progress.taken ∧
      progress.taken < progress.body.locks.length :=
    Protocol.two_le_locks member wanted
  rw [(Body.locks_clearingGrace grace).2] at counted
  simp only [List.length_cons, List.length_nil] at counted
  omega

theorem not_single {progress : Progress Body}
    (notRoleState : progress.body.isRoleState = false)
    (notGrace : progress.body.clearingGrace = none)
    {taken resource : Resource}
    (member : taken ∈ (protocol usernameAdvisoryKey).held progress)
    (wanted : (protocol usernameAdvisoryKey).next progress = some resource) :
    False := by
  have counted : 1 ≤ progress.taken ∧
      progress.taken < progress.body.locks.length :=
    Protocol.two_le_locks member wanted
  have single := Body.locks_single notRoleState notGrace
  omega

/-- A clearing grace login that waits does so for a transaction that has all
its locks. -/
theorem Uncrossed.grace_not_chained
    (uncrossed : Uncrossed usernameAdvisoryKey usernames world)
    {id other : Fin size} {progress holder : Progress Body}
    (running : world id = some progress) (holding : world other = some holder)
    (different : id ≠ other) {username : String}
    (between : betweenLocks progress = some username)
    (holds : Holds usernameAdvisoryKey holder (lockLoginAttemptsFor username))
    {resource : Resource}
    (wanted : (protocol usernameAdvisoryKey).next holder = some resource) :
    False := by
  rcases betweenLocks_eq_some between with ⟨once, grace⟩
  have graceLocks := (Body.locks_clearingGrace grace).2
  rcases holds with ⟨taken, member, sameLock⟩
  cases roleState : holder.body.isRoleState with
  | true =>
      -- it would have the history lock too, which the grace login has
      rcases uncrossed.complete id progress other holder running holding
        username between roleState ⟨taken, member, sameLock⟩ with
        ⟨history, historyHeld, sameHistory⟩
      have graceHeld : lockPasswordHistoryFor username ∈
          (protocol usernameAdvisoryKey).held progress := by
        rw [Protocol.held, once]
        change _ ∈ progress.body.locks.take 1
        rw [graceLocks]
        exact List.mem_singleton.mpr rfl
      exact uncrossed.exclusive.apart id progress other holder running holding
        different _ graceHeld _ historyHeld sameHistory.symm
  | false =>
      cases clearing : holder.body.clearingGrace with
      | none => exact not_single roleState clearing member wanted
      | some otherName =>
          -- a second grace login that waits has a history lock only
          have otherLocks := (Body.locks_clearingGrace clearing).2
          have one := taken_eq_one clearing member wanted
          have history : taken = lockPasswordHistoryFor otherName := by
            have inHead : taken ∈ holder.body.locks.take holder.taken := member
            rw [otherLocks, one] at inHead
            exact List.mem_singleton.mp inHead
          rw [history] at sameLock
          have spaces := congrArg Prod.fst sameLock
          cases spaces

/-- A wait that is followed by two more leads to a later lock. -/
theorem Uncrossed.awaitsLater
    (uncrossed : Uncrossed usernameAdvisoryKey usernames world)
    (injective : ∀ left ∈ usernames, ∀ right ∈ usernames,
      usernameAdvisoryKey left = usernameAdvisoryKey right → left = right)
    {first second third fourth : Fin size}
    (firstWaits : (protocol usernameAdvisoryKey).BlockedBy world first second)
    (secondWaits : (protocol usernameAdvisoryKey).BlockedBy world second third)
    (thirdWaits : (protocol usernameAdvisoryKey).BlockedBy world third fourth) :
    AwaitsLater usernameAdvisoryKey world first second := by
  rcases firstWaits with ⟨_, waiter, holder, resource, taken, running, holding,
    wanted, held, sameLock⟩
  rcases secondWaits with ⟨apart, alsoHolder, last, later, lastTaken,
    alsoHolding, lastHolding, holderWants, lastHeld, sameLater⟩
  rcases thirdWaits with ⟨_, alsoLast, _, beyond, _, alsoLastHolding, _,
    lastWants, _, _⟩
  rw [holding, Option.some.injEq] at alsoHolding
  subst alsoHolding
  rw [lastHolding, Option.some.injEq] at alsoLastHolding
  subst alsoLastHolding
  have sameResource := uncrossed.eq_of_lockOf injective running holding
    (List.mem_of_getElem? wanted) (List.mem_of_mem_take held) sameLock
  refine ⟨resource, later, ?_, ?_, ?_⟩
  · rw [awaited, running]
    exact wanted
  · rw [awaited, holding]
    exact holderWants
  cases roleState : holder.body.isRoleState with
  | true =>
      rw [← sameResource]
      exact @Protocol.held_before_next _ _ _ (protocol usernameAdvisoryKey)
        holder (fun left right => rank left < rank right) taken later
        (Body.locks_ordered roleState) held holderWants
  | false =>
      cases clearing : holder.body.clearingGrace with
      | none => exact (not_single roleState clearing held holderWants).elim
      | some username =>
          have graceLocks := (Body.locks_clearingGrace clearing).2
          have once := taken_eq_one clearing held holderWants
          have between : betweenLocks holder = some username := by
            rw [betweenLocks, if_pos once, clearing]
          have wantsLogin : later = lockLoginAttemptsFor username := by
            have second : holder.body.locks[holder.taken]? = some later :=
              holderWants
            rw [graceLocks, once] at second
            exact (Option.some.inj second).symm
          rw [wantsLogin] at sameLater
          exact (uncrossed.grace_not_chained holding lastHolding apart between
            ⟨lastTaken, lastHeld, sameLater⟩ lastWants).elim

/-- Whatever the number of transactions and their order, no cycle of waits is
reached when the role-state functions and the clearing grace logins do not
cross. -/
theorem no_deadlock {actions : List (Action size Body)}
    (injective : ∀ left ∈ usernames, ∀ right ∈ usernames,
      usernameAdvisoryKey left = usernameAdvisoryKey right → left = right)
    (avoids : (machine usernameAdvisoryKey usernames size).EveryStep
      (AvoidsCrossing usernameAdvisoryKey) (fun _ => none) actions)
    (completed : (machine usernameAdvisoryKey usernames size).run
      (fun _ => none) actions = some world) (id : Fin size) :
    ¬Relation.TransGen ((protocol usernameAdvisoryKey).BlockedBy world) id
      id := by
  have uncrossed := Machine.run_invariant_of_everyStep
    (fun uncrossed avoids stepped => Uncrossed.step uncrossed avoids stepped)
    uncrossed_empty avoids completed
  apply @not_transGen_self _ _ (AwaitsLater usernameAdvisoryKey world)
  · intro first second third fourth firstWaits secondWaits thirdWaits
    exact uncrossed.awaitsLater injective firstWaits secondWaits thirdWaits
  · intro first second third before after
    rcases before with ⟨lowest, middle, awaitsLowest, awaitsMiddle, lower⟩
    rcases after with ⟨alsoMiddle, highest, alsoAwaits, awaitsHighest, higher⟩
    rw [awaitsMiddle, Option.some.injEq] at alsoAwaits
    subst alsoAwaits
    exact ⟨lowest, highest, awaitsLowest, awaitsHighest, lower.trans higher⟩
  · intro node awaits
    rcases awaits with ⟨lower, higher, awaitsLower, awaitsHigher, less⟩
    rw [awaitsLower, Option.some.injEq] at awaitsHigher
    subst awaitsHigher
    exact lt_irrefl _ less

end Deadlock

/-- The keys of the two users of the runs below. -/
def sampleKey (username : String) : Int32 :=
  if username = "alice" then -1178143249
  else if username = "bob" then -1608369534
  else 0

/-- `alice` is renamed to `bob` while a failure and a grace login of `alice`
wait. -/
theorem no_deadlock_alice :
    ∃ world, (machine sampleKey ["alice", "bob"] 3).run (fun _ => none)
        [.begin 0 (.renameRoleState "alice" "bob"), .acquire 0, .acquire 0,
          .begin 1 (.event .failure false "alice"), .acquire 0, .acquire 0,
          .begin 2 (.event .graceConsumed true "alice")] = some world ∧
      world 0 = some ⟨.renameRoleState "alice" "bob", 4⟩ ∧
      ∀ id, ¬Relation.TransGen ((protocol sampleKey).BlockedBy world) id
        id := by
  have summary : ((machine sampleKey ["alice", "bob"] 3).run (fun _ => none)
      [.begin 0 (.renameRoleState "alice" "bob"), .acquire 0, .acquire 0,
        .begin 1 (.event .failure false "alice"), .acquire 0, .acquire 0,
        .begin 2 (.event .graceConsumed true "alice")]).map (· 0) =
      some (some ⟨.renameRoleState "alice" "bob", 4⟩) := by
    decide
  rcases Option.map_eq_some_iff.mp summary with ⟨world, completed, first⟩
  exact ⟨world, completed, first, no_deadlock (by decide)
    (by decide) completed⟩

/-- A grace login that clears failed logins meets the removal of its role. -/
theorem deadlock_alice :
    ∃ world, (machine sampleKey ["alice"] 2).run (fun _ => none)
        [.begin 0 (.event .graceConsumed true "alice"),
          .begin 1 (.removeRoleState "alice"), .acquire 0, .acquire 1] =
        some world ∧
      Relation.TransGen ((protocol sampleKey).BlockedBy world) 0 0 := by
  have summary : ((machine sampleKey ["alice"] 2).run (fun _ => none)
      [.begin 0 (.event .graceConsumed true "alice"),
        .begin 1 (.removeRoleState "alice"), .acquire 0, .acquire 1]).map
        (fun world => (world 0, world 1)) =
      some (some ⟨.event .graceConsumed true "alice", 1⟩,
        some ⟨.removeRoleState "alice", 1⟩) := by decide
  rcases Option.map_eq_some_iff.mp summary with ⟨world, completed, both⟩
  have grace := congrArg Prod.fst both
  have removal := congrArg Prod.snd both
  have forth : (protocol sampleKey).BlockedBy world 0 1 :=
    ⟨by decide, _, _, lockLoginAttemptsFor "alice",
      lockLoginAttemptsFor "alice", grace, removal, by decide,
      by decide, rfl⟩
  have back : (protocol sampleKey).BlockedBy world 1 0 :=
    ⟨by decide, _, _, lockPasswordHistoryFor "alice",
      lockPasswordHistoryFor "alice", removal, grace, by decide,
      by decide, rfl⟩
  exact ⟨world, completed, .tail (.single forth) back⟩

end PasswordProfile.AdvisoryLock
