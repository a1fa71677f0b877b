import PasswordProfile.PendingCacheOp.Commit

/-! # One transaction after the other

Every backend has one staging area for all its transactions, and the callbacks
alone keep their work apart. Between two calls of a commit the other backends
go on.
-/

namespace PasswordProfile.PendingCacheOp

open AuthEvent Execution

inductive CommitCall
  | cache (call : CacheCall)
  | ackClaim (token : ClaimToken)
  deriving DecidableEq, Repr

inductive XactEvent
  | commit
  | parallelCommit
  | abort
  | parallelAbort
  | preCommit
  | parallelPreCommit
  | prePrepare
  | prepare
  deriving DecidableEq, Repr

def prepareRefused : String :=
  "password_profile: PREPARE TRANSACTION is not supported while lock cache " ++
  "updates are pending; commit or roll back this transaction instead"

def commitCalls (pending : PendingState) : List CommitCall :=
  (applyAll pending).map .cache ++
    (pending.ack.map fun ack => CommitCall.ackClaim ack.token).toList

def xactCallback (event : XactEvent) (pending : PendingState) :
    Except String (List CommitCall × PendingState) :=
  match event with
  | .commit | .parallelCommit => .ok (commitCalls pending, pending.reset)
  | .abort | .parallelAbort => .ok ([], pending.reset)
  | .prePrepare =>
      if pending.isEmpty then .ok ([], pending) else .error prepareRefused
  | .prepare => .ok ([], pending.reset)
  | .preCommit | .parallelPreCommit => .ok ([], pending)

inductive Backend
  | idle (pending : PendingState)
  | running (transaction : Transaction)
  | committing (transaction : Transaction) (remaining : List CommitCall)
      (pending : PendingState)

inductive Outcome
  | committed
  | aborted
  | prepared
  | prepareRefused
  deriving DecidableEq, Repr

structure Ended where
  backend : Nat
  transaction : Transaction
  outcome : Outcome

/-- All backends, the calls made on shared memory so far, and how every
transaction ended. -/
structure Sessions where
  backends : Nat → Backend
  performed : List (Nat × CommitCall)
  ended : List Ended

inductive SessionAction
  | begin
  | act (action : Action)
  | commit (parallel : Bool)
  | perform
  | finish
  | abort (parallel : Bool)
  | prepare

namespace Sessions

def start : Sessions where
  backends := fun _ => .idle .new
  performed := []
  ended := []

def set (sessions : Sessions) (backend : Nat) (state : Backend) : Sessions :=
  { sessions with backends := Function.update sessions.backends backend state }

def close (sessions : Sessions) (backend : Nat) (transaction : Transaction)
    (outcome : Outcome) (pending : PendingState) : Sessions :=
  { sessions.set backend (.idle pending) with
    ended := sessions.ended ++ [⟨backend, transaction, outcome⟩] }

def begin (sessions : Sessions) (backend : Nat) (pending : PendingState) :
    Sessions :=
  sessions.set backend
    (.running { Transaction.start 1 with pending := pending })

def commit (sessions : Sessions) (backend : Nat) (transaction : Transaction)
    (parallel : Bool) : Option Sessions :=
  if transaction.outer = [] then
    match xactCallback (if parallel then .parallelCommit else .commit)
        transaction.pending with
    | .ok (calls, pending) =>
        some (sessions.set backend (.committing transaction calls pending))
    | .error _ => none
  else none

def abort (sessions : Sessions) (backend : Nat) (transaction : Transaction)
    (parallel : Bool) (outcome : Outcome) : Option Sessions :=
  match xactCallback (if parallel then .parallelAbort else .abort)
      transaction.pending with
  | .ok (_, pending) =>
      some (sessions.close backend transaction outcome pending)
  | .error _ => none

def prepare (sessions : Sessions) (backend : Nat) (transaction : Transaction) :
    Option Sessions :=
  if transaction.outer = [] then
    match xactCallback .prePrepare transaction.pending with
    | .error _ => sessions.abort backend transaction false .prepareRefused
    | .ok (_, checked) =>
        match xactCallback .prepare checked with
        | .ok (_, pending) =>
            some (sessions.close backend transaction .prepared pending)
        | .error _ => none
  else none

def perform (sessions : Sessions) (backend : Nat) (transaction : Transaction)
    (call : CommitCall) (remaining : List CommitCall)
    (pending : PendingState) : Sessions :=
  { sessions.set backend (.committing transaction remaining pending) with
    performed := sessions.performed ++ [(backend, call)] }

def step (sessions : Sessions) (taken : Nat × SessionAction) :
    Option Sessions :=
  match taken.2, sessions.backends taken.1 with
  | .begin, .idle pending => some (sessions.begin taken.1 pending)
  | .act action, .running transaction =>
      (transaction.step action).map fun next =>
        sessions.set taken.1 (.running next)
  | .commit parallel, .running transaction =>
      sessions.commit taken.1 transaction parallel
  | .perform, .committing transaction (call :: remaining) pending =>
      some (sessions.perform taken.1 transaction call remaining pending)
  | .finish, .committing transaction [] pending =>
      some (sessions.close taken.1 transaction .committed pending)
  | .abort parallel, .running transaction =>
      sessions.abort taken.1 transaction parallel .aborted
  | .prepare, .running transaction =>
      sessions.prepare taken.1 transaction
  | _, _ => none

def machine : Machine Sessions (Nat × SessionAction) := ⟨step⟩

def performedBy (sessions : Sessions) (backend : Nat) : List CommitCall :=
  (sessions.performed.filter fun made => made.1 = backend).map Prod.snd

def committedBy (sessions : Sessions) (backend : Nat) : List Transaction :=
  (sessions.ended.filter fun ended =>
    ended.backend = backend ∧ ended.outcome = .committed).map
      Ended.transaction

end Sessions

/-! ## What a transaction owes to shared memory -/

def CommitCall.cacheCall : CommitCall → Option CacheCall
  | .cache call => some call
  | .ackClaim _ => none

def CommitCall.token : CommitCall → Option ClaimToken
  | .cache _ => none
  | .ackClaim token => some token

/-- For every user the halves of the last surviving operation, each of them
once, and then the last surviving acknowledgement. -/
structure Publishes (transaction : Transaction) (calls : List CommitCall) :
    Prop where
  lock : ∀ username, (calls.filterMap CommitCall.cacheCall).filterMap
      (CacheCall.lockDecision username) =
    ((transaction.lastStaged username).bind StagedEntry.decision).toList
  expiry : ∀ username, (calls.filterMap CommitCall.cacheCall).filterMap
      (CacheCall.expiryDecision username) =
    ((transaction.lastStaged username).bind
      fun staged => staged.expiry.effective).toList
  ordered : calls = (calls.filterMap CommitCall.cacheCall).map .cache ++
    (transaction.lastAck.map CommitCall.ackClaim).toList

def Transaction.Void (transaction : Transaction) : Prop :=
  transaction.surviving = [] ∧ transaction.lastAck = none

structure Ended.Justified (ended : Ended) : Prop where
  prepared : ended.outcome = .prepared → ended.transaction.Void
  refused : ended.outcome = .prepareRefused → ¬ended.transaction.Void

theorem Ended.justified_of_ne {backend : Nat} {transaction : Transaction}
    {outcome : Outcome} (unprepared : outcome ≠ .prepared)
    (unrefused : outcome ≠ .prepareRefused) :
    Justified ⟨backend, transaction, outcome⟩ :=
  ⟨fun same => absurd same unprepared, fun same => absurd same unrefused⟩

/-- What a backend stands at, `made` being the calls of the transaction that is
under way. -/
def Backend.Owes (made : List CommitCall) : Backend → Prop
  | .idle pending => pending = .new ∧ made = []
  | .running _ => made = []
  | .committing transaction remaining pending =>
      Publishes transaction (made ++ remaining) ∧ pending = .new

def Sessions.Balanced (sessions : Sessions) (backend : Nat) : Prop :=
  ∃ pieces made,
    List.Forall₂ Publishes (sessions.committedBy backend) pieces ∧
      sessions.performedBy backend = pieces.flatten ++ made ∧
      (sessions.backends backend).Owes made

/-- Only committed transactions reach shared memory, one after the other in
each backend, and only those of which nothing survived can be prepared. -/
structure Accounted (sessions : Sessions) : Prop where
  balanced : ∀ backend, sessions.Balanced backend
  justified : ∀ ended ∈ sessions.ended, ended.Justified

theorem commitCalls_cacheCalls (pending : PendingState) :
    (commitCalls pending).filterMap CommitCall.cacheCall =
      applyAll pending := by
  have acks : (pending.ack.map fun ack =>
      CommitCall.ackClaim ack.token).toList.filterMap CommitCall.cacheCall =
        [] := by
    cases pending.ack with
    | none => rfl
    | some ack => rfl
  have caches : (applyAll pending).filterMap
      (CommitCall.cacheCall ∘ CommitCall.cache) = applyAll pending :=
    List.filterMap_some
  rw [commitCalls, List.filterMap_append, acks, List.append_nil,
    List.filterMap_map, caches]

theorem Tracks.ack_token {transaction : Transaction}
    (tracks : Tracks transaction) :
    transaction.pending.ack.map PendingAck.token = transaction.lastAck := by
  rw [tracks.ack.ack, ackView_token]
  rfl

theorem Tracks.filterMap_applyAll {transaction : Transaction}
    (tracks : Tracks transaction) (closed : transaction.outer = [])
    {username : EncodedUsername} {called : CacheCall → Option β}
    {half : PendingEntry → Option β} {stagedHalf : StagedEntry → Option β}
    (calls : ∀ entry : PendingEntry,
      (entry.lockCalls ++ entry.expiryCalls).filterMap called =
        if entry.username = username then (half entry).toList else [])
    (same : ∀ staged subid, half (StagedEntry.at staged subid) =
      stagedHalf staged) :
    (applyAll transaction.pending).filterMap called =
      ((transaction.lastStaged username).bind stagedHalf).toList := by
  rw [applyAll, filterMap_calls calls, tracks.filter_closed closed]
  cases transaction.lastStaged username with
  | none => rfl
  | some last =>
      have carried := same last transaction.current.subid
      cases value : stagedHalf last with
      | none => simp [carried, value]
      | some found => simp [carried, value]

theorem Tracks.publishes {transaction : Transaction}
    (tracks : Tracks transaction) (closed : transaction.outer = []) :
    Publishes transaction (commitCalls transaction.pending) where
  lock := by
    intro username
    rw [commitCalls_cacheCalls]
    exact tracks.filterMap_applyAll closed (lockDecision_calls username)
      fun _ _ => rfl
  expiry := by
    intro username
    rw [commitCalls_cacheCalls]
    exact tracks.filterMap_applyAll closed (expiryDecision_calls username)
      fun _ _ => rfl
  ordered := by
    rw [commitCalls_cacheCalls, ← tracks.ack_token, Option.map_map]
    rfl

theorem lastStaged_eq_none_iff (transaction : Transaction)
    (username : EncodedUsername) :
    transaction.lastStaged username = none ↔
      ∀ staged ∈ transaction.surviving, staged.username ≠ username := by
  rw [Transaction.lastStaged, List.getLast?_eq_none_iff,
    List.filter_eq_nil_iff]
  simp

theorem Tracks.isEmpty_iff {transaction : Transaction}
    (tracks : Tracks transaction) (closed : transaction.outer = []) :
    transaction.pending.isEmpty = true ↔ transaction.Void := by
  rcases tracks.entries with ⟨items, holds, _⟩
  have filtered := tracks.filter_closed closed
  rw [holds.entryList_eq] at filtered
  have survives : items = [] ↔ transaction.surviving = [] := by
    rw [List.eq_nil_iff_forall_not_mem, List.eq_nil_iff_forall_not_mem]
    constructor
    · intro none staged member
      have last : transaction.lastStaged staged.username = Option.none := by
        have missing := filtered staged.username
        rw [List.eq_nil_iff_forall_not_mem.mpr none] at missing
        cases found : transaction.lastStaged staged.username with
        | none => rfl
        | some last =>
            rw [found] at missing
            cases missing
      exact (lastStaged_eq_none_iff transaction staged.username).mp last
        staged member rfl
    · intro none entry member
      have last : transaction.lastStaged entry.username = Option.none := by
        rw [lastStaged_eq_none_iff]
        intro staged survived
        exact absurd survived (none staged)
      have here := filtered entry.username
      rw [last, Option.map_none, Option.toList_none,
        List.filter_eq_nil_iff] at here
      exact here entry member (by simp)
  rw [PendingState.isEmpty, holds.live_eq, Transaction.Void,
    ← tracks.ack_token, ← survives, Option.map_eq_none_iff]
  simp

/-! ## Every step keeps the accounts -/

namespace Sessions

variable {sessions next : Sessions} {backend other : Nat}
  {transaction : Transaction}

theorem Balanced.congr (balanced : sessions.Balanced backend)
    (performed : next.performedBy backend = sessions.performedBy backend)
    (committed : next.committedBy backend = sessions.committedBy backend)
    (state : next.backends backend = sessions.backends backend) :
    next.Balanced backend := by
  rcases balanced with ⟨pieces, made, publishes, whole, owes⟩
  refine ⟨pieces, made, ?_, ?_, ?_⟩
  · rw [committed]
    exact publishes
  · rw [performed]
    exact whole
  · rw [state]
    exact owes

theorem backends_set (sessions : Sessions) (backend : Nat) (state : Backend) :
    (sessions.set backend state).backends backend = state := by
  simp [set]

theorem backends_set_other (sessions : Sessions) (state : Backend)
    (different : other ≠ backend) :
    (sessions.set backend state).backends other = sessions.backends other := by
  simp [set, different]

theorem committedBy_close (sessions : Sessions) (backend other : Nat)
    (transaction : Transaction) (outcome : Outcome) (pending : PendingState) :
    (sessions.close backend transaction outcome pending).committedBy other =
      sessions.committedBy other ++
        if backend = other ∧ outcome = .committed then [transaction]
        else [] := by
  rw [committedBy, committedBy, close]
  by_cases counted : backend = other ∧ outcome = .committed
  · simp [counted]
  · simp [counted]

theorem performedBy_perform (sessions : Sessions) (backend other : Nat)
    (transaction : Transaction) (call : CommitCall)
    (remaining : List CommitCall) (pending : PendingState) :
    (sessions.perform backend transaction call remaining
        pending).performedBy other =
      sessions.performedBy other ++
        if backend = other then [call] else [] := by
  rw [performedBy, performedBy, perform]
  by_cases same : backend = other
  · simp [same]
  · simp [same]

structure Sound (sessions : Sessions) : Prop where
  accounted : Accounted sessions
  tracked : ∀ backend transaction,
    sessions.backends backend = .running transaction → Tracks transaction

theorem sound_start : start.Sound where
  accounted := {
    balanced := fun _ => ⟨[], [], .nil, rfl, rfl, rfl⟩
    justified := fun _ member => by cases member }
  tracked := fun _ _ running => by cases running

theorem Sound.tracked_set (sound : sessions.Sound) {state : Backend}
    (tracks : ∀ transaction, state = .running transaction →
      Tracks transaction) (other : Nat) (transaction : Transaction)
    (running : (sessions.set backend state).backends other =
      .running transaction) : Tracks transaction := by
  by_cases same : other = backend
  · subst same
    rw [backends_set] at running
    exact tracks transaction running
  · rw [backends_set_other sessions state same] at running
    exact sound.tracked other transaction running

theorem Sound.justified_close (sound : sessions.Sound) {outcome : Outcome}
    (last : Ended.Justified ⟨backend, transaction, outcome⟩)
    (pending : PendingState) :
    ∀ ended ∈ (sessions.close backend transaction outcome pending).ended,
      ended.Justified := by
  intro ended member
  rcases List.mem_append.mp member with earlier | isLast
  · exact sound.accounted.justified ended earlier
  · rw [List.mem_singleton.mp isLast]
    exact last

theorem Sound.set (sound : sessions.Sound) {state : Backend}
    (owes : ∀ made, (sessions.backends backend).Owes made → state.Owes made)
    (tracks : ∀ transaction, state = .running transaction →
      Tracks transaction) : (sessions.set backend state).Sound where
  accounted := {
    balanced := by
      intro other
      by_cases same : other = backend
      · subst same
        rcases sound.accounted.balanced other with
          ⟨pieces, made, publishes, whole, before⟩
        refine ⟨pieces, made, publishes, whole, ?_⟩
        rw [backends_set]
        exact owes made before
      · exact (sound.accounted.balanced other).congr rfl rfl
          (backends_set_other sessions state same)
    justified := sound.accounted.justified }
  tracked := sound.tracked_set tracks

theorem Sound.idle (sound : sessions.Sound)
    (running : sessions.backends backend = .running transaction) :
    (sessions.set backend (.idle .new)).Sound := by
  apply Sound.set sound
  · intro made owes
    rw [running] at owes
    exact ⟨rfl, owes⟩
  · intro _ impossible
    cases impossible

theorem Sound.close (sound : sessions.Sound) {outcome : Outcome}
    (running : sessions.backends backend = .running transaction)
    (uncommitted : outcome ≠ .committed)
    (justified : Ended.Justified ⟨backend, transaction, outcome⟩) :
    (sessions.close backend transaction outcome .new).Sound where
  accounted := {
    balanced := by
      intro other
      have idle := (sound.idle running).accounted.balanced other
      have same : (sessions.close backend transaction outcome
          .new).committedBy other = sessions.committedBy other := by
        rw [committedBy_close, if_neg fun both => uncommitted both.2,
          List.append_nil]
      exact idle.congr rfl same rfl
    justified := sound.justified_close justified .new }
  tracked := (sound.idle running).tracked

theorem Sound.begin (sound : sessions.Sound) {pending : PendingState}
    (idle : sessions.backends backend = .idle pending) :
    (sessions.begin backend pending).Sound := by
  -- the previous transaction left nothing behind
  have clean : pending = .new := by
    rcases sound.accounted.balanced backend with ⟨_, _, _, _, owes⟩
    rw [idle] at owes
    exact owes.1
  apply Sound.set sound
  · intro made owes
    rw [idle] at owes
    exact owes.2
  · intro transaction started
    cases started
    rw [clean]
    exact tracks_start 1

theorem Sound.act (sound : sessions.Sound) {action : Action}
    {stepped : Transaction}
    (running : sessions.backends backend = .running transaction)
    (acted : transaction.step action = some stepped) :
    (sessions.set backend (.running stepped)).Sound := by
  apply Sound.set sound
  · intro made owes
    rw [running] at owes
    exact owes
  · intro following same
    cases same
    exact (sound.tracked backend transaction running).step acted

theorem Sound.commit (sound : sessions.Sound) {parallel : Bool}
    (running : sessions.backends backend = .running transaction)
    (stepped : sessions.commit backend transaction parallel = some next) :
    next.Sound := by
  rw [Sessions.commit] at stepped
  split at stepped
  · next closed =>
      have callback : xactCallback
          (if parallel then .parallelCommit else .commit)
            transaction.pending =
          .ok (commitCalls transaction.pending, .new) := by
        cases parallel <;> rfl
      rw [callback] at stepped
      cases stepped
      apply Sound.set sound
      · intro made owes
        rw [running] at owes
        cases owes
        exact ⟨(sound.tracked backend transaction running).publishes closed,
          rfl⟩
      · intro _ impossible
        cases impossible
  · cases stepped

theorem Sound.abort (sound : sessions.Sound) {parallel : Bool}
    {outcome : Outcome}
    (running : sessions.backends backend = .running transaction)
    (stepped : sessions.abort backend transaction parallel outcome =
      some next) (uncommitted : outcome ≠ .committed)
    (justified : Ended.Justified ⟨backend, transaction, outcome⟩) :
    next.Sound := by
  have callback : xactCallback (if parallel then .parallelAbort else .abort)
      transaction.pending = .ok ([], .new) := by
    cases parallel <;> rfl
  rw [Sessions.abort, callback] at stepped
  cases stepped
  exact sound.close running uncommitted justified

theorem Sound.prepare (sound : sessions.Sound)
    (running : sessions.backends backend = .running transaction)
    (stepped : sessions.prepare backend transaction = some next) :
    next.Sound := by
  rw [Sessions.prepare] at stepped
  split at stepped
  · next closed =>
      have empty := (sound.tracked backend transaction running).isEmpty_iff
        closed
      by_cases nothing : transaction.pending.isEmpty = true
      · rw [xactCallback, if_pos nothing] at stepped
        cases stepped
        apply sound.close running (by decide)
        constructor
        · exact fun _ => empty.mp nothing
        · intro same
          cases same
      · rw [xactCallback, if_neg nothing] at stepped
        apply sound.abort running stepped (by decide)
        constructor
        · intro same
          cases same
        · exact fun _ void => nothing (empty.mpr void)
  · cases stepped

theorem Sound.perform (sound : sessions.Sound) {call : CommitCall}
    {remaining : List CommitCall} {pending : PendingState}
    (committing : sessions.backends backend =
      .committing transaction (call :: remaining) pending) :
    (sessions.perform backend transaction call remaining pending).Sound where
  accounted := {
    balanced := by
      intro other
      by_cases same : other = backend
      · subst same
        rcases sound.accounted.balanced other with
          ⟨pieces, made, publishes, whole, owes⟩
        refine ⟨pieces, made ++ [call], publishes, ?_, ?_⟩
        · rw [performedBy_perform, if_pos rfl, whole, List.append_assoc]
        · rw [committing] at owes
          change Backend.Owes _ ((sessions.set other _).backends other)
          rw [backends_set]
          refine ⟨?_, owes.2⟩
          rw [List.append_assoc]
          exact owes.1
      · have unchanged : (sessions.perform backend transaction call remaining
            pending).performedBy other = sessions.performedBy other := by
          rw [performedBy_perform, if_neg (Ne.symm same), List.append_nil]
        exact (sound.accounted.balanced other).congr unchanged rfl
          (backends_set_other sessions _ same)
    justified := sound.accounted.justified }
  tracked := sound.tracked_set fun _ running => by cases running

theorem Sound.finish (sound : sessions.Sound) {pending : PendingState}
    (committing : sessions.backends backend =
      .committing transaction [] pending) :
    (sessions.close backend transaction .committed pending).Sound where
  accounted := {
    balanced := by
      intro other
      by_cases same : other = backend
      · subst same
        rcases sound.accounted.balanced other with
          ⟨pieces, made, publishes, whole, owes⟩
        rw [committing] at owes
        refine ⟨pieces ++ [made], [], ?_, ?_, ?_⟩
        · rw [committedBy_close, if_pos ⟨rfl, rfl⟩]
          apply List.rel_append publishes
          have own := owes.1
          rw [List.append_nil] at own
          exact .cons own .nil
        · rw [List.flatten_concat, List.append_nil]
          exact whole
        · change Backend.Owes _ ((sessions.set other _).backends other)
          rw [backends_set]
          exact ⟨owes.2, rfl⟩
      · have unchanged : (sessions.close backend transaction .committed
            pending).committedBy other = sessions.committedBy other := by
          rw [committedBy_close, if_neg fun both => same both.1.symm,
            List.append_nil]
        exact (sound.accounted.balanced other).congr rfl unchanged
          (backends_set_other sessions _ same)
    justified := by
      apply sound.justified_close
      apply Ended.justified_of_ne
      · decide
      · decide }
  tracked := sound.tracked_set fun _ running => by cases running

theorem Sound.step {taken : Nat × SessionAction} (sound : sessions.Sound)
    (stepped : sessions.step taken = some next) : next.Sound := by
  rcases taken with ⟨backend, action⟩
  rw [Sessions.step] at stepped
  split at stepped
  · next idle =>
      cases stepped
      exact sound.begin idle
  · next running =>
      rcases Option.map_eq_some_iff.mp stepped with ⟨following, acted, same⟩
      cases same
      exact sound.act running acted
  · next running => exact sound.commit running stepped
  · next committing =>
      cases stepped
      exact sound.perform committing
  · next committing =>
      cases stepped
      exact sound.finish committing
  · next running =>
      apply sound.abort running stepped (by decide)
      apply Ended.justified_of_ne
      · decide
      · decide
  · next running => exact sound.prepare running stepped
  · cases stepped

end Sessions

/-- Whatever the backends do and however their steps interleave, exactly the
surviving work of the committed transactions reaches shared memory, one
transaction of a backend after the other; an idle backend has nothing staged,
and only a transaction of which nothing survived is prepared. -/
theorem run_accounted {actions : List (Nat × SessionAction)}
    {sessions : Sessions}
    (completed : Sessions.machine.run .start actions = some sessions) :
    Accounted sessions := by
  have sound : sessions.Sound := Machine.run_invariant
    (fun {state} {_} {_} (sound : Sessions.Sound state) stepped =>
      sound.step stepped)
    Sessions.sound_start completed
  exact sound.accounted

/-- One backend is refused a PREPARE and starts again, between the calls of
another one's commit. -/
def preparedBesideCommit : List (Nat × SessionAction) :=
  [(0, .begin), (1, .begin),
    (0, .act (stage (encodeUsername "alice") (.setLock 5))),
    (0, .act (.stageAck ⟨3, 8⟩)),
    (1, .act (stage (encodeUsername "bob") .clearLock)),
    (0, .commit false), (0, .perform), (1, .prepare), (1, .begin),
    (0, .perform), (0, .finish), (1, .prepare)]

theorem preparedBesideCommit_accounted :
    ∃ sessions,
      Sessions.machine.run .start preparedBesideCommit = some sessions ∧
      sessions.performed =
        [(0, .cache (.lock (encodeUsername "alice") (.setLock 5))),
          (0, .ackClaim ⟨3, 8⟩)] ∧
      sessions.ended.map Ended.outcome =
        [.prepareRefused, .committed, .prepared] ∧
      Accounted sessions := by
  have completed :
      Sessions.machine.run .start preparedBesideCommit = some _ := rfl
  exact ⟨_, rfl, by decide, by decide, run_accounted completed⟩

end PasswordProfile.PendingCacheOp
