import PasswordProfile.Worker.Backoff
import PasswordProfile.Worker.Replay

/-! # The loop replays the journal

The surroundings of the worker are the two files of the journal, the place of
its reader and the transaction it has open. A worker that obeys its protocol
there runs every record exactly once, whenever it is cut off.
-/

namespace PasswordProfile.Worker.LoopReplay

open AuthEvent AuthJournal Interaction Replay

structure Effect where
  eventId : EventId
  username : String
  kind : EventKind
  flags : EventFlags
  generation : TimestampTz
  deriving DecidableEq

def effectOf (event : SharedAuthEvent) : Option Effect := do
  let username ← usernameFromBytes event.username.toList
  let kind ← EventKind.fromRaw event.kind
  let flags ← EventFlags.fromRaw event.flags
  return ⟨event.eventId, username, kind, flags, event.generation⟩

theorem eventId_of_effectOf {event : SharedAuthEvent} {effect : Effect}
    (decoded : effectOf event = some effect) :
    effect.eventId = event.eventId := by
  simp only [effectOf, Option.bind_eq_bind, Option.bind_eq_some_iff] at decoded
  rcases decoded with ⟨username, _, kind, _, flags, _, same⟩
  cases same
  rfl

inductive Work
  | none
  | applied (effect : Effect) (isNew : Bool)
  | receiptOnly (eventId : EventId)
  | noReceipts
  deriving DecidableEq

/-- `appended` and `effects` only record what has happened. A reader that has
lost its place counts as none. -/
structure Surroundings where
  active : List SharedAuthEvent
  processing : Option (List SharedAuthEvent)
  reader : Option Batch
  work : Work
  receipts : List EventId
  effects : List Effect
  appended : List SharedAuthEvent
  deriving DecidableEq

namespace Surroundings

def empty : Surroundings := ⟨[], none, none, .none, [], [], []⟩

inductive Produces : Surroundings → Surroundings → Prop
  | nothing (surroundings : Surroundings) : Produces surroundings surroundings
  | append {surroundings next : Surroundings} (event : SharedAuthEvent)
      (fresh : event.eventId ∉
        surroundings.appended.map SharedAuthEvent.eventId)
      (rest : Produces { surroundings with
        active := surroundings.active ++ [event]
        appended := surroundings.appended ++ [event] } next) :
      Produces surroundings next

def rotated (surroundings : Surroundings) : Surroundings := { surroundings with
  processing := some surroundings.active
  active := [] }

def committed (surroundings : Surroundings) : Surroundings :=
  match surroundings.work with
  | .none => surroundings
  | .applied effect true => { surroundings with
      work := .none
      receipts := effect.eventId :: surroundings.receipts
      effects := surroundings.effects ++ [effect] }
  | .applied _ false => { surroundings with work := .none }
  | .receiptOnly eventId => { surroundings with
      work := .none
      receipts := eventId :: surroundings.receipts }
  | .noReceipts => { surroundings with work := .none, receipts := [] }

/-- What the surroundings may answer, and what they are afterwards. Where an
operation fails it may have failed before or after its effect on the files; a
failed read may lose the place of the reader. -/
def Responds (surroundings : Surroundings) :
    (call : WorkerCall) → call.Answer → Surroundings → Prop
  | .rotateJournal, .ok (some _), next =>
      (surroundings.processing.isSome ∧ next = surroundings) ∨
        (surroundings.processing = none ∧ next = surroundings.rotated)
  | .rotateJournal, .ok none, next =>
      surroundings.processing = none ∧ next = surroundings
  | .rotateJournal, .error _, next => next = surroundings ∨
      (surroundings.processing = none ∧ next = surroundings.rotated)
  | .openJournal _, .ok (), next => ∃ records,
      surroundings.processing = some records ∧
        next = { surroundings with reader := some ⟨records.length, 0⟩ }
  | .openJournal _, .error _, next => next = surroundings
  | .nextEvent _, .ok (some event), next => ∃ batch,
      surroundings.reader = some batch ∧
        batch.readRecords ≠ batch.completeRecords ∧
        (surroundings.processing.getD [])[batch.readRecords]? = some event ∧
        next = { surroundings with
          reader := some ⟨batch.completeRecords, batch.readRecords + 1⟩ }
  | .nextEvent _, .ok none, next => ∃ batch,
      surroundings.reader = some batch ∧
        batch.readRecords = batch.completeRecords ∧ next = surroundings
  | .nextEvent _, .error _, next =>
      next = surroundings ∨ next = { surroundings with reader := none }
  | .removeProcessing _, .ok (), next =>
      next = { surroundings with processing := none }
  | .removeProcessing _, .error _, next =>
      next = surroundings ∨ next = { surroundings with processing := none }
  | .startTransaction _, _, next => next = { surroundings with work := .none }
  | .applyEvent eventId username kind flags generation, .ok (.ok ()), next =>
      next = { surroundings with
        work := .applied ⟨eventId, username, kind, flags, generation⟩
          (!surroundings.receipts.contains eventId) }
  | .applyEvent eventId .., _, next => next = surroundings ∨
      next = { surroundings with work := .receiptOnly eventId }
  | .deleteReceipts, .ok (.ok ()), next =>
      next = { surroundings with work := .noReceipts }
  | .commitTransaction _, .ok (), next => next = surroundings.committed
  | .commitTransaction _, .error _, next =>
      next = { surroundings with work := .none }
  | .abortCurrentTransaction, _, next =>
      next = { surroundings with work := .none }
  | _, _, next => next = surroundings

/-- The exchanges of a worker with its surroundings, while producers append. -/
inductive Hosts : Surroundings → List WorkerExchange → Surroundings → Prop
  | nil {surroundings final : Surroundings}
      (produces : Produces surroundings final) : Hosts surroundings [] final
  | cons {surroundings before after final : Surroundings} {call : WorkerCall}
      {answer : call.Answer} {rest : List WorkerExchange}
      (produces : Produces surroundings before)
      (responds : before.Responds call answer after)
      (hosts : Hosts after rest final) :
      Hosts surroundings (⟨call, answer⟩ :: rest) final

def crash (surroundings : Surroundings) : Surroundings :=
  { surroundings with reader := none, work := .none }

end Surroundings

/-- The exchanges of one life of the worker. -/
def life (environment : Environment WorkerCall.Answer) (count : Nat)
    (history : List WorkerExchange) : List WorkerExchange :=
  (Fallible.repeats authEventConsumerImpl environment count .starting history).1

/-- What can be reached by one life of the worker after another, each of them
cut off after any exchange. -/
inductive Reachable : Surroundings → Prop
  | empty : Reachable .empty
  | life {surroundings final : Surroundings}
      (environment : Environment WorkerCall.Answer) (count : Nat)
      (history : List WorkerExchange) {trace : List WorkerExchange}
      (cut : trace <+: life environment count history)
      (reachable : Reachable surroundings)
      (hosts : surroundings.Hosts trace final) : Reachable final.crash

/-! ## The joint invariant -/

/-- The world of the replay, when these records have been applied and the
worker stands here. -/
def Surroundings.world (surroundings : Surroundings) (worker : Position)
    (applied : List SharedAuthEvent) : World where
  active := surroundings.active
  processing := surroundings.processing
  receipts := surroundings.receipts
  worker := worker
  appended := surroundings.appended
  applied := applied

def Stands (control : Control) (surroundings : Surroundings)
    (worker : Position) : Prop :=
  match control.stage with
  | .none | .rotated _ => worker = .idle
  | .reading _ => ∀ batch, surroundings.reader = some batch →
      worker = .reading batch
  | .ended _ => ∃ batch, worker = .reading batch ∧
      batch.readRecords = batch.completeRecords
  | .pending _ event _ => ∃ batch, surroundings.reader = some batch ∧
      if control.phase = .ready .event true then
        ∃ effect isNew, effectOf event = some effect ∧
          surroundings.work = .applied effect isNew ∧
          worker = .inTransaction batch event isNew
      else worker = .pending batch event
  | .removed => worker = .cleaning

def Holds (control : Control) (work : Work) : Prop :=
  match control.phase with
  | .none | .failed _ => True
  | .open _ => work = .none
  | .ready .event loaded => loaded = true ∧ ∃ path event claim,
      control.stage = .pending path event claim
  | .ready .receiptCleanup _ => control.stage = .removed ∧
      (work = .none ∨ work = .noReceipts)
  | .ready _ _ => work = .none

structure Joint (control : Control) (surroundings : Surroundings)
    (worker : Position) (applied : List SharedAuthEvent) : Prop where
  consistent : Consistent (surroundings.world worker applied)
  effects : surroundings.effects.map some = applied.map effectOf
  stands : Stands control surroundings worker
  holds : Holds control surroundings.work

section

variable {control : Control} {surroundings next : Surroundings}
  {worker : Position} {applied : List SharedAuthEvent}

theorem Consistent.rotated
    (consistent : Consistent (surroundings.world .idle applied))
    (missing : surroundings.processing = none) :
    Consistent (surroundings.rotated.world .idle applied) := by
  rcases consistent with ⟨removed, done, explained⟩
  have whole := explained.appended
  have taken := explained.applied
  simp only [World.records, Surroundings.world, missing, Option.getD_none,
    List.take_nil, List.nil_append, List.append_nil] at whole taken
  refine ⟨removed, 0, explained.distinct, ?_, ?_, Nat.zero_le _,
    explained.receiptsApplied, by simp, trivial⟩
  · simpa [World.records, Surroundings.world, Surroundings.rotated] using whole
  · simpa [Surroundings.world] using taken

theorem Joint.produces (joint : Joint control surroundings worker applied)
    (produces : surroundings.Produces next) :
    Joint control next worker applied := by
  induction produces with
  | nothing => exact joint
  | append event fresh rest induction =>
      apply induction
      refine ⟨?_, joint.effects, joint.stands, joint.holds⟩
      apply Consistent.append joint.consistent
      exact if_neg fresh

theorem Joint.forget (joint : Joint control surroundings worker applied)
    {other : Control} (stage : other.stage = .none)
    (holds : Holds other surroundings.work) :
    Joint other surroundings .idle applied := by
  refine ⟨joint.consistent.forget, joint.effects, ?_, holds⟩
  rw [Stands, stage]

theorem Joint.congr (joint : Joint control surroundings worker applied)
    {other : Control} (stage : other.stage = control.stage)
    (phase : other.phase = control.phase) :
    Joint other surroundings worker applied := by
  refine ⟨joint.consistent, joint.effects, ?_, ?_⟩
  · rw [Stands, stage, phase]
    exact joint.stands
  · rw [Holds, stage, phase]
    exact joint.holds

theorem Stands.congr {other : Control}
    (stands : Stands control surroundings worker)
    (stage : other.stage = control.stage)
    (reader : next.reader = surroundings.reader)
    (open' : control.phase ≠ .ready .event true)
    (still : other.phase ≠ .ready .event true) : Stands other next worker := by
  unfold Stands at stands ⊢
  rw [stage, reader]
  simp only [if_neg open'] at stands
  simp only [if_neg still]
  exact stands

theorem joint_idle {other : Control}
    (consistent : Consistent (next.world .idle applied))
    (effects : next.effects.map some = applied.map effectOf)
    (stage : other.stage = .none ∨ ∃ path, other.stage = .rotated path)
    (phase : other.phase = .none) : Joint other next .idle applied := by
  refine ⟨consistent, effects, ?_, ?_⟩
  · rcases stage with none | ⟨path, rotated⟩
    · rw [Stands, none]
    · rw [Stands, rotated]
  · rw [Holds, phase]
    trivial

/-! ## One lemma for each call -/

theorem Joint.rotateJournal
    (joint : Joint control surroundings worker applied)
    (permits : control.Permits .rotateJournal)
    {answer : WorkerCall.rotateJournal.Answer}
    (responds : surroundings.Responds .rotateJournal answer next) :
    ∃ worker applied, Joint (control.advance .rotateJournal answer) next worker
      applied := by
  rcases permits with ⟨consumes, stage⟩
  have idle := joint.stands
  rw [Stands, stage] at idle
  cases idle
  have rotates (missing : surroundings.processing = none) :=
    Consistent.rotated joint.consistent missing
  refine ⟨.idle, applied, ?_⟩
  match answer with
  | .ok (some path) =>
      rcases responds with ⟨_, rfl⟩ | ⟨missing, rfl⟩
      · exact joint_idle joint.consistent joint.effects (.inr ⟨path, rfl⟩)
          consumes.phase
      · exact joint_idle (rotates missing) joint.effects (.inr ⟨path, rfl⟩)
          consumes.phase
  | .ok none =>
      rcases responds with ⟨_, rfl⟩
      exact joint
  | .error error =>
      rcases responds with rfl | ⟨missing, rfl⟩
      · exact joint_idle joint.consistent joint.effects (.inl stage)
          consumes.phase
      · exact joint_idle (rotates missing) joint.effects (.inl stage)
          consumes.phase

theorem Joint.openJournal
    (joint : Joint control surroundings worker applied) {path : JournalPath}
    (permits : control.Permits (.openJournal path))
    {answer : (WorkerCall.openJournal path).Answer}
    (responds : surroundings.Responds (.openJournal path) answer next) :
    ∃ worker applied, Joint (control.advance (.openJournal path) answer) next
      worker applied := by
  rcases permits with ⟨consumes, stage⟩
  have idle := joint.stands
  rw [Stands, stage] at idle
  cases idle
  match answer with
  | .ok () =>
      rcases responds with ⟨records, present, rfl⟩
      refine ⟨.reading ⟨records.length, 0⟩, applied, ?_, joint.effects, ?_, ?_⟩
      · apply Consistent.openReader joint.consistent
        simp [World.openReader, Surroundings.world, present]
      · intro batch same
        cases same
        rfl
      · simp [Holds, Control.advance, consumes.phase]
  | .error error =>
      cases responds
      exact ⟨.idle, applied, joint_idle joint.consistent joint.effects
        (.inl rfl) consumes.phase⟩

theorem Joint.nextEvent
    (joint : Joint control surroundings worker applied) {path : JournalPath}
    (permits : control.Permits (.nextEvent path))
    {answer : (WorkerCall.nextEvent path).Answer}
    (responds : surroundings.Responds (.nextEvent path) answer next) :
    ∃ worker applied, Joint (control.advance (.nextEvent path) answer) next
      worker applied := by
  rcases permits with ⟨consumes, stage⟩
  have reading := joint.stands
  rw [Stands, stage] at reading
  match answer with
  | .ok (some event) =>
      rcases responds with ⟨batch, here, inside, found, rfl⟩
      have worker := reading batch here
      subst worker
      refine ⟨.pending ⟨batch.completeRecords, batch.readRecords + 1⟩ event,
        applied, ?_, joint.effects, ?_, ?_⟩
      · apply Consistent.nextEvent joint.consistent
        simp only [World.nextEvent, Surroundings.world, if_neg inside, found]
      · refine ⟨_, rfl, ?_⟩
        simp [Control.advance, consumes.phase]
      · simp [Holds, Control.advance, consumes.phase]
  | .ok none =>
      rcases responds with ⟨batch, here, atEnd, rfl⟩
      refine ⟨worker, applied, joint.consistent, joint.effects,
        ⟨batch, reading batch here, atEnd⟩, ?_⟩
      simp [Holds, Control.advance, consumes.phase]
  | .error error =>
      rcases responds with rfl | rfl
      · exact ⟨worker, applied, joint.congr rfl rfl⟩
      · refine ⟨worker, applied, joint.consistent, joint.effects, ?_, ?_⟩
        · rw [Stands]
          simp [Control.advance, stage]
        · simp [Holds, Control.advance, consumes.phase]

theorem Joint.removeProcessing
    (joint : Joint control surroundings worker applied) {path : JournalPath}
    (permits : control.Permits (.removeProcessing path))
    {answer : (WorkerCall.removeProcessing path).Answer}
    (responds : surroundings.Responds (.removeProcessing path) answer next) :
    ∃ worker applied, Joint (control.advance (.removeProcessing path) answer)
      next worker applied := by
  rcases permits with ⟨consumes, stage⟩
  have ended := joint.stands
  rw [Stands, stage] at ended
  rcases ended with ⟨batch, rfl, atEnd⟩
  match answer with
  | .ok () =>
      cases responds
      refine ⟨.cleaning, applied, ?_, joint.effects, rfl, ?_⟩
      · refine joint.consistent.removeProcessing
          (?_ : World.removeProcessing _ .removed = some _)
        simp [World.removeProcessing, Surroundings.world, atEnd]
      · simp [Holds, Control.advance, consumes.phase]
  | .error error =>
      refine ⟨.idle, applied, ?_⟩
      rcases responds with rfl | rfl
      · exact joint_idle joint.consistent.forget joint.effects (.inl rfl)
          consumes.phase
      · refine joint_idle ?_ joint.effects (.inl rfl) consumes.phase
        refine joint.consistent.removeProcessing
          (?_ : World.removeProcessing _ .failedAfterUnlink = some _)
        simp [World.removeProcessing, Surroundings.world, atEnd]

theorem Joint.startTransaction
    (joint : Joint control surroundings worker applied) {site : Site}
    (permits : control.Permits (.startTransaction site))
    {answer : (WorkerCall.startTransaction site).Answer}
    (responds : surroundings.Responds (.startTransaction site) answer next) :
    ∃ worker applied, Joint (control.advance (.startTransaction site) answer)
      next worker applied := by
  have phase : control.phase = .none := by
    cases site with
    | event => exact permits.1.phase
    | receiptCleanup => exact permits.1.phase
    | lockHydration => exact permits.phase
    | expiryHydration => exact permits.phase
    | bypassRefresh => exact permits.phase
  have begun : (control.advance (.startTransaction site) answer).stage =
      (control.begin site).stage := by
    cases answer <;> rfl
  have unready : (control.advance (.startTransaction site) answer).phase ≠
      .ready .event true := by
    cases answer <;> nofun
  have holds : Holds (control.advance (.startTransaction site) answer)
      .none := by
    cases answer <;> trivial
  cases responds
  cases site with
  | lockHydration =>
      refine ⟨.idle, applied, joint.consistent.forget, joint.effects, ?_,
        holds⟩
      rw [Stands, begun]
      rfl
  | _ =>
      exact ⟨worker, applied, joint.consistent, joint.effects,
        joint.stands.congr begun rfl (by rw [phase]; nofun) unready, holds⟩

theorem effectOf_eq_some {event : SharedAuthEvent} {eventId : EventId}
    {username : String} {kind : EventKind} {flags : EventFlags}
    {generation : TimestampTz}
    (decodes : Control.Decodes event eventId username kind flags generation) :
    effectOf event =
      some ⟨eventId, username, kind, flags, generation⟩ := by
  rcases decodes with ⟨rfl, named, kinded, flagged, rfl⟩
  simp [effectOf, named, kinded, flagged]

theorem Joint.applyEvent
    (joint : Joint control surroundings worker applied) {eventId : EventId}
    {username : String} {kind : EventKind} {flags : EventFlags}
    {generation : TimestampTz}
    (permits : control.Permits
      (.applyEvent eventId username kind flags generation))
    {answer : (WorkerCall.applyEvent eventId username kind flags
      generation).Answer}
    (responds : surroundings.Responds
      (.applyEvent eventId username kind flags generation) answer next) :
    ∃ worker applied, Joint (control.advance
      (.applyEvent eventId username kind flags generation) answer) next worker
        applied := by
  rcases permits with ⟨phase, path, event, claim, stage, decodes⟩
  have unready : control.phase ≠ .ready .event true := by
    rw [phase]
    nofun
  have fails (other : Surroundings)
      (same : other = surroundings ∨
        other = { surroundings with work := .receiptOnly eventId }) :
      Joint { control with phase := .failed .event } other worker
        applied := by
    rcases same with rfl | rfl
    · exact ⟨joint.consistent, joint.effects,
        joint.stands.congr rfl rfl unready nofun, trivial⟩
    · exact ⟨joint.consistent, joint.effects,
        joint.stands.congr rfl rfl unready nofun, trivial⟩
  match answer with
  | .ok (.ok ()) =>
      have pending := joint.stands
      rw [Stands, stage] at pending
      rcases pending with ⟨batch, reader, here⟩
      rw [if_neg unready] at here
      subst here
      cases responds
      refine ⟨.inTransaction batch event
          (decide (event.eventId ∉ surroundings.receipts)), applied,
        ?_, joint.effects, ?_, ?_⟩
      · apply Consistent.beginTransaction joint.consistent
        rfl
      · rw [Stands]
        simp only [Control.advance, stage]
        refine ⟨batch, reader, ?_⟩
        rw [if_pos trivial]
        refine ⟨_, _, effectOf_eq_some decodes, rfl, ?_⟩
        rw [← decodes.1, List.contains_eq_mem, ← decide_not]
      · exact ⟨rfl, path, event, claim, stage⟩
  | .ok (.error detail) => exact ⟨worker, applied, fails next responds⟩
  | .error caught => exact ⟨worker, applied, fails next responds⟩

theorem Joint.deleteReceipts
    (joint : Joint control surroundings worker applied)
    (permits : control.Permits .deleteReceipts)
    {answer : WorkerCall.deleteReceipts.Answer}
    (responds : surroundings.Responds .deleteReceipts answer next) :
    ∃ worker applied, Joint (control.advance .deleteReceipts answer) next
      worker applied := by
  rcases permits with ⟨phase, stage⟩
  have unready : control.phase ≠ .ready .event true := by
    rw [phase]
    nofun
  have empty : surroundings.work = .none := by
    have holds := joint.holds
    rw [Holds, phase] at holds
    exact holds
  match answer with
  | .ok (.ok ()) =>
      cases responds
      exact ⟨worker, applied, joint.consistent, joint.effects,
        joint.stands.congr rfl rfl unready nofun, stage, .inr rfl⟩
  | .ok (.error detail) =>
      cases responds
      exact ⟨worker, applied, joint.consistent, joint.effects,
        joint.stands.congr rfl rfl unready nofun, stage, .inl empty⟩
  | .error caught =>
      cases responds
      exact ⟨worker, applied, joint.consistent, joint.effects,
        joint.stands.congr rfl rfl unready nofun, trivial⟩

theorem Joint.body (joint : Joint control surroundings worker applied)
    {site : Site} (hydrates : site.hydrates = true)
    (phase : control.phase = .open site)
    (answer : Except CaughtError (Except String Counts)) :
    Joint { control with phase := Control.bodyPhase site answer } surroundings
      worker applied := by
  have unready : control.phase ≠ .ready .event true := by
    rw [phase]
    nofun
  have empty : surroundings.work = .none := by
    have holds := joint.holds
    rw [Holds, phase] at holds
    exact holds
  cases answer with
  | ok result =>
      refine ⟨joint.consistent, joint.effects,
        joint.stands.congr rfl rfl unready ?_, ?_⟩
      · intro same
        cases (Phase.ready.inj same).1
        cases hydrates
      · cases site <;> first | exact empty | cases hydrates
  | error caught =>
      exact ⟨joint.consistent, joint.effects,
        joint.stands.congr rfl rfl unready nofun, trivial⟩

theorem Joint.commitEvent
    (joint : Joint control surroundings worker applied) {loaded : Bool}
    (phase : control.phase = .ready .event loaded) :
    ∃ worker applied, Joint (control.commit .event loaded)
      surroundings.committed worker applied := by
  have holds := joint.holds
  rw [Holds, phase] at holds
  rcases holds with ⟨rfl, path, event, claim, stage⟩
  have stands := joint.stands
  rw [Stands, stage] at stands
  rcases stands with ⟨batch, reader, here⟩
  rw [if_pos phase] at here
  rcases here with ⟨effect, isNew, decoded, work, rfl⟩
  have identified := eventId_of_effectOf decoded
  have consistent := joint.consistent.commitTransaction
    (rfl : World.commitTransaction _ = some _)
  have reads : Stands (control.commit .event true) surroundings
      (.reading batch) := by
    rw [Stands]
    simp only [Control.commit, stage]
    intro other same
    cases reader.symm.trans same
    rfl
  cases isNew with
  | true =>
      have committed : surroundings.committed = { surroundings with
          work := .none
          receipts := effect.eventId :: surroundings.receipts
          effects := surroundings.effects ++ [effect] } := by
        rw [Surroundings.committed, work]
      rw [committed, identified]
      refine ⟨.reading batch, applied ++ [event], consistent, ?_, reads,
        trivial⟩
      simp [joint.effects, decoded]
  | false =>
      have committed : surroundings.committed =
          { surroundings with work := .none } := by
        rw [Surroundings.committed, work]
      rw [committed]
      exact ⟨.reading batch, applied, consistent, joint.effects, reads,
        trivial⟩

theorem Joint.commitCleanup
    (joint : Joint control surroundings worker applied) {loaded : Bool}
    (phase : control.phase = .ready .receiptCleanup loaded) :
    ∃ worker applied, Joint (control.commit .receiptCleanup loaded)
      surroundings.committed worker applied := by
  have holds := joint.holds
  rw [Holds, phase] at holds
  rcases holds with ⟨stage, work⟩
  have stands := joint.stands
  rw [Stands, stage] at stands
  subst stands
  refine ⟨.idle, applied, ?_⟩
  rcases work with none | emptied
  · have committed : surroundings.committed = surroundings := by
      rw [Surroundings.committed, none]
    rw [committed]
    exact joint_idle joint.consistent.forget joint.effects (.inl rfl) rfl
  · have committed : surroundings.committed =
        { surroundings with work := .none, receipts := [] } := by
      rw [Surroundings.committed, emptied]
    rw [committed]
    exact joint_idle (joint.consistent.deleteReceipts
      (rfl : World.deleteReceipts _ true = some _)) joint.effects (.inl rfl) rfl

theorem Joint.commitHydration
    (joint : Joint control surroundings worker applied) {site : Site}
    (hydrates : site.hydrates = true) {loaded : Bool}
    (phase : control.phase = .ready site loaded) :
    Joint (control.commit site loaded) surroundings.committed worker
      applied := by
  have unready : control.phase ≠ .ready .event true := by
    rw [phase]
    intro same
    cases (Phase.ready.inj same).1
    cases hydrates
  have empty : surroundings.work = .none := by
    have holds := joint.holds
    rw [Holds, phase] at holds
    cases site <;> first | exact holds | cases hydrates
  have committed : surroundings.committed = surroundings := by
    rw [Surroundings.committed, empty]
  rw [committed]
  refine ⟨joint.consistent, joint.effects, ?_, ?_⟩
  · cases site <;> first
      | exact joint.stands.congr rfl rfl unready nofun
      | cases hydrates
  · cases site <;> trivial

theorem Joint.commitFailed
    (joint : Joint control surroundings worker applied) (site : Site) :
    ∃ worker applied, Joint { control with phase := .failed site }
      { surroundings with work := .none } worker applied := by
  by_cases ready : control.phase = .ready .event true
  · have holds := joint.holds
    rw [Holds, ready] at holds
    rcases holds with ⟨_, path, event, claim, stage⟩
    have stands := joint.stands
    rw [Stands, stage] at stands
    rcases stands with ⟨batch, reader, here⟩
    rw [if_pos ready] at here
    rcases here with ⟨effect, isNew, _, _, rfl⟩
    refine ⟨.pending batch event, applied, joint.consistent.abortTransaction
      (rfl : World.abortTransaction _ = some _), joint.effects, ?_, trivial⟩
    rw [Stands]
    simp only [stage]
    refine ⟨batch, reader, ?_⟩
    rw [if_neg nofun]
  · exact ⟨worker, applied, joint.consistent, joint.effects,
      joint.stands.congr rfl rfl ready nofun, trivial⟩

theorem Joint.commitTransaction
    (joint : Joint control surroundings worker applied) {site : Site}
    (permits : control.Permits (.commitTransaction site))
    {answer : (WorkerCall.commitTransaction site).Answer}
    (responds : surroundings.Responds (.commitTransaction site) answer next) :
    ∃ worker applied, Joint (control.advance (.commitTransaction site) answer)
      next worker applied := by
  rcases permits with ⟨loaded, phase⟩
  match answer with
  | .ok () =>
      cases responds
      rw [Control.advance, phase]
      cases site with
      | event => exact joint.commitEvent phase
      | receiptCleanup => exact joint.commitCleanup phase
      | lockHydration => exact ⟨_, _, joint.commitHydration rfl phase⟩
      | expiryHydration => exact ⟨_, _, joint.commitHydration rfl phase⟩
      | bypassRefresh => exact ⟨_, _, joint.commitHydration rfl phase⟩
  | .error caught =>
      cases responds
      exact joint.commitFailed site

theorem Joint.step (joint : Joint control surroundings worker applied)
    {call : WorkerCall} (permits : control.Permits call) {answer : call.Answer}
    (responds : surroundings.Responds call answer next) :
    ∃ worker applied, Joint (control.advance call answer) next worker
      applied := by
  cases call with
  | rotateJournal => exact joint.rotateJournal permits responds
  | openJournal path => exact joint.openJournal permits responds
  | nextEvent path => exact joint.nextEvent permits responds
  | removeProcessing path => exact joint.removeProcessing permits responds
  | startTransaction site => exact joint.startTransaction permits responds
  | applyEvent eventId username kind flags generation =>
      exact joint.applyEvent permits responds
  | deleteReceipts => exact joint.deleteReceipts permits responds
  | commitTransaction site => exact joint.commitTransaction permits responds
  | abortCurrentTransaction =>
      cases responds
      rcases permits with ⟨site, phase⟩
      rw [Control.advance, phase]
      refine ⟨worker, applied, joint.consistent, joint.effects, ?_, ?_⟩
      · apply joint.stands.congr
        · cases site <;> rfl
        · rfl
        · rw [phase]
          intro same
          cases same
        · intro same
          cases site <;> cases same
      · cases site <;> trivial
  | hydrateFromDb =>
      cases responds
      exact ⟨worker, applied, joint.body rfl permits answer⟩
  | hydrateExpiryFromDb =>
      cases responds
      exact ⟨worker, applied, joint.body rfl permits answer⟩
  | refreshBypassCache =>
      cases responds
      exact ⟨worker, applied, joint.body rfl permits answer⟩
  | markCorrupt =>
      cases responds
      refine ⟨.idle, applied, joint.forget rfl ?_⟩
      have idle : control.phase = .none := permits
      simp [Holds, Control.advance, idle]
  | matchingClaim eventId =>
      cases responds
      rcases permits with ⟨consumes, path, event, claim, stage, _⟩
      have pending := joint.stands
      rw [Stands, stage] at pending
      refine ⟨worker, applied, joint.consistent, joint.effects, ?_, ?_⟩
      · rw [Stands]
        simp only [Control.advance, stage]
        exact pending
      · simp [Holds, Control.advance, consumes.phase]
  | markDurableFailureNow =>
      cases responds
      refine ⟨worker, applied, joint.congr ?_ ?_⟩
      · simp only [Control.advance]
        split <;> rfl
      · simp only [Control.advance]
        split <;> rfl
  | waitLatch milliseconds =>
      cases responds
      refine ⟨worker, applied, ?_⟩
      cases answer with
      | false => exact joint
      | true => exact joint.congr rfl rfl
  | _ =>
      cases responds
      exact ⟨worker, applied, joint.congr rfl rfl⟩

/-! ## Whole lives -/

theorem Joint.hosts {trace : List WorkerExchange}
    (joint : Joint control surroundings worker applied)
    (accepts : protocol.Accepts control trace)
    (hosts : surroundings.Hosts trace next) :
    ∃ worker applied, Joint (protocol.after control trace) next worker
      applied := by
  induction hosts generalizing control worker applied with
  | nil produces => exact ⟨worker, applied, joint.produces produces⟩
  | cons produces responds hosts induction =>
      rcases (joint.produces produces).step accepts.1 responds with
        ⟨worker, applied, after⟩
      exact induction after accepts.2

theorem life_accepts (environment : Environment WorkerCall.Answer)
    (count : Nat) (history : List WorkerExchange) {trace : List WorkerExchange}
    (cut : trace <+: life environment count history) :
    protocol.Accepts Control.start trace := by
  rcases cut with ⟨rest, whole⟩
  have accepts := (life_obeys environment count history).1
  change protocol.Accepts Control.start (life environment count history)
    at accepts
  rw [← whole] at accepts
  exact (Monitor.accepts_append.mp accepts).1

theorem Reachable.joint (reachable : Reachable surroundings) :
    ∃ applied, Joint Control.start surroundings .idle applied := by
  induction reachable with
  | empty =>
      exact ⟨[], joint_idle consistent_initial rfl (.inl rfl) rfl⟩
  | life environment count history cut _ hosts induction =>
      rcases induction with ⟨applied, joint⟩
      rcases joint.hosts (life_accepts environment count history cut) hosts with
        ⟨worker, applied, after⟩
      exact ⟨applied, joint_idle after.consistent.forget after.effects
        (.inl rfl) rfl⟩

end

/-- Every record has had its effect or is still in the journal; the effects are
those of the records, in the order in which they were appended, and none of
them was repeated. -/
structure ExactlyOnce (surroundings : Surroundings) : Prop where
  inOrder : ∃ applied waiting, surroundings.appended = applied ++ waiting ∧
    surroundings.effects.map some = applied.map effectOf ∧
    ∀ record ∈ waiting, record ∈ surroundings.processing.getD [] ∨
      record ∈ surroundings.active
  atMostOnce : (surroundings.effects.map Effect.eventId).Nodup

/-- The file may go: every record in it has had its effect. -/
def MayRemove (surroundings : Surroundings) : Prop :=
  ∀ record ∈ surroundings.processing.getD [],
    ∃ effect ∈ surroundings.effects, effectOf record = some effect

section

variable {control : Control} {surroundings : Surroundings}
  {worker : Position} {applied : List SharedAuthEvent}

theorem map_eventId {effects : List Effect}
    (same : effects.map some = applied.map effectOf) :
    effects.map Effect.eventId = applied.map SharedAuthEvent.eventId := by
  induction applied generalizing effects with
  | nil => simpa using same
  | cons event rest induction =>
      cases effects with
      | nil => cases same
      | cons effect later =>
          rw [List.map_cons, List.map_cons] at same
          rcases List.cons.inj same with ⟨decoded, others⟩
          rw [List.map_cons, List.map_cons, induction others,
            eventId_of_effectOf decoded.symm]

theorem Joint.exactlyOnce (joint : Joint control surroundings worker applied) :
    ExactlyOnce surroundings := by
  have whole := joint.consistent.appended_eq
  refine ⟨⟨applied, _, whole, joint.effects, ?_⟩, ?_⟩
  · intro record member
    exact List.mem_append.mp (List.mem_of_mem_filter member)
  · have distinct := joint.consistent.distinct
    rw [map_eventId joint.effects]
    rw [whole, List.map_append] at distinct
    exact (List.nodup_append.mp distinct).1

theorem Joint.mayRemove (joint : Joint control surroundings worker applied)
    {path : JournalPath} (ended : control.stage = .ended path) :
    MayRemove surroundings := by
  have stands := joint.stands
  rw [Stands, ended] at stands
  rcases stands with ⟨batch, rfl, atEnd⟩
  rcases joint.consistent with ⟨removed, done, explained⟩
  have complete : applied = removed ++ surroundings.processing.getD [] :=
    explained.complete rfl atEnd
  intro record member
  have decoded : effectOf record ∈ surroundings.effects.map some := by
    rw [joint.effects, complete]
    exact List.mem_map_of_mem (List.mem_append_right _ member)
  rcases List.mem_map.mp decoded with ⟨effect, known, same⟩
  exact ⟨effect, known, same.symm⟩

end

/-- In every life of the worker, after any number of earlier ones that were cut
off anywhere, and with producers at work between any two exchanges. -/
theorem loop_exactlyOnce {surroundings final : Surroundings}
    (reachable : Reachable surroundings)
    (environment : Environment WorkerCall.Answer) (count : Nat)
    (history : List WorkerExchange) {trace : List WorkerExchange}
    (cut : trace <+: life environment count history)
    (hosts : surroundings.Hosts trace final) :
    ExactlyOnce final ∧
      ∀ path answer, trace ++ [⟨.removeProcessing path, answer⟩] <+:
        life environment count history → MayRemove final := by
  rcases reachable.joint with ⟨applied, joint⟩
  rcases joint.hosts (life_accepts environment count history cut) hosts with
    ⟨worker, applied, after⟩
  refine ⟨after.exactlyOnce, ?_⟩
  intro path answer continued
  have accepts := life_accepts environment count history continued
  exact after.mayRemove accepts.inside.1.2

/-! ## A server without failures -/

namespace Surroundings

def serve (surroundings : Surroundings) :
    (call : WorkerCall) → call.Answer × Surroundings
  | .rotateJournal =>
      if surroundings.processing.isSome then
        (.ok (some "password_profile_auth_events.processing"), surroundings)
      else if surroundings.active = [] then (.ok none, surroundings)
      else (.ok (some "password_profile_auth_events.processing"),
        surroundings.rotated)
  | .openJournal _ =>
      match surroundings.processing with
      | some records => (.ok (),
          { surroundings with reader := some ⟨records.length, 0⟩ })
      | none => (.error .io, surroundings)
  | .nextEvent _ =>
      match surroundings.reader with
      | some batch =>
          if batch.readRecords = batch.completeRecords then
            (.ok none, surroundings)
          else
            match (surroundings.processing.getD [])[batch.readRecords]? with
            | some event => (.ok (some event), { surroundings with
                reader := some
                  ⟨batch.completeRecords, batch.readRecords + 1⟩ })
            | none => (.error .io, surroundings)
      | none => (.error .io, surroundings)
  | .removeProcessing _ => (.ok (), { surroundings with processing := none })
  | .startTransaction _ => (.ok (), { surroundings with work := .none })
  | .applyEvent eventId username kind flags generation => (.ok (.ok ()),
      { surroundings with
        work := .applied ⟨eventId, username, kind, flags, generation⟩
          (!surroundings.receipts.contains eventId) })
  | .deleteReceipts => (.ok (.ok ()),
      { surroundings with work := .noReceipts })
  | .commitTransaction _ => (.ok (), surroundings.committed)
  | .abortCurrentTransaction => ((), { surroundings with work := .none })
  | call => (batchAnswer (.ok (.ok ⟨0, 0, 0⟩)) true (.ok (.ok ())) call,
      surroundings)

theorem serve_responds (surroundings : Surroundings) (call : WorkerCall) :
    surroundings.Responds call (surroundings.serve call).1
      (surroundings.serve call).2 := by
  cases call with
  | rotateJournal =>
      rw [serve]
      split
      · next present => exact .inl ⟨present, rfl⟩
      · next missing =>
          have none : surroundings.processing = none := by
            simpa using missing
          split
          · exact ⟨none, rfl⟩
          · exact .inr ⟨none, rfl⟩
  | openJournal path =>
      rw [serve]
      split
      · next records present => exact ⟨records, present, rfl⟩
      · rfl
  | nextEvent path =>
      rw [serve]
      split
      · next batch here =>
          split
          · next atEnd => exact ⟨batch, here, atEnd, rfl⟩
          · next inside =>
              split
              · next event found => exact ⟨batch, here, inside, found, rfl⟩
              · exact .inl rfl
      · exact .inl rfl
  | _ => rfl

def served (surroundings : Surroundings) (history : List WorkerExchange) :
    Surroundings :=
  history.foldl (fun current exchange => (current.serve exchange.1).2)
    surroundings

def server (surroundings : Surroundings) : Environment WorkerCall.Answer :=
  fun history call => ((surroundings.served history).serve call).1

theorem Produces.trans {surroundings middle final : Surroundings}
    (first : surroundings.Produces middle) (second : middle.Produces final) :
    surroundings.Produces final := by
  induction first with
  | nothing => exact second
  | append event fresh _ induction =>
      exact .append event fresh (induction second)

theorem Hosts.append {surroundings middle final : Surroundings}
    {earlier later : List WorkerExchange}
    (first : surroundings.Hosts earlier middle)
    (second : middle.Hosts later final) :
    surroundings.Hosts (earlier ++ later) final := by
  induction first with
  | nil produces =>
      cases second with
      | nil more => exact .nil (produces.trans more)
      | cons more responds hosts =>
          exact .cons (produces.trans more) responds hosts
  | cons produces responds _ induction =>
      exact .cons produces responds (induction second)

def Answered (surroundings : Surroundings) : List WorkerExchange → Prop
  | [] => True
  | ⟨call, answer⟩ :: rest => answer = (surroundings.serve call).1 ∧
      (surroundings.serve call).2.Answered rest

theorem Answered.append {surroundings : Surroundings}
    {earlier later : List WorkerExchange}
    (first : surroundings.Answered earlier)
    (second : (surroundings.served earlier).Answered later) :
    surroundings.Answered (earlier ++ later) := by
  induction earlier generalizing surroundings with
  | nil => exact second
  | cons exchange rest induction => exact ⟨first.1, induction first.2 second⟩

theorem Answered.cut {surroundings : Surroundings}
    {earlier later : List WorkerExchange}
    (answered : surroundings.Answered (earlier ++ later)) :
    surroundings.Answered earlier := by
  induction earlier generalizing surroundings with
  | nil => trivial
  | cons exchange rest induction => exact ⟨answered.1, induction answered.2⟩

theorem Answered.hosts {surroundings : Surroundings}
    {trace : List WorkerExchange} (answered : surroundings.Answered trace) :
    surroundings.Hosts trace (surroundings.served trace) := by
  induction trace generalizing surroundings with
  | nil => exact .nil (.nothing _)
  | cons exchange rest induction =>
      rcases exchange with ⟨call, answer⟩
      rcases answered with ⟨rfl, later⟩
      exact .cons (.nothing _) (serve_responds surroundings call)
        (induction later)

theorem served_append (surroundings : Surroundings)
    (earlier later : List WorkerExchange) :
    surroundings.served (earlier ++ later) =
      (surroundings.served earlier).served later :=
  List.foldl_append

theorem answered_run {Result : Type} (surroundings : Surroundings)
    (program : Program WorkerCall WorkerCall.Answer Result)
    (history : List WorkerExchange) :
    (surroundings.served history).Answered
      (program.run surroundings.server history).1 := by
  induction program generalizing history with
  | done result => trivial
  | ask call next induction =>
      let answer := surroundings.server history call
      have rest := induction answer (history ++ [⟨call, answer⟩])
      rw [served_append] at rest
      exact ⟨rfl, rest⟩

theorem answered_life (surroundings : Surroundings) (count : Nat) :
    surroundings.Answered (life surroundings.server count []) := by
  have answered : ∀ position history, (surroundings.served history).Answered
      (Fallible.repeats authEventConsumerImpl surroundings.server count position
        history).1 := by
    induction count with
    | zero => exact fun _ _ => trivial
    | succ count induction =>
        intro position history
        have once := answered_run surroundings
          (authEventConsumerImpl position).run history
        rw [Fallible.repeats]
        rcases reached : Program.run surroundings.server
            (authEventConsumerImpl position).run history with
          ⟨trace, raised | next | result⟩
        · rw [reached] at once
          exact once
        · rw [reached] at once
          have rest := induction next (history ++ trace)
          rw [served_append] at rest
          exact once.append rest
        · rw [reached] at once
          exact once
  exact answered .starting []

end Surroundings

def secondLogin : SharedAuthEvent := { failedLogin with
  eventId := Vector.replicate 16 1
  username := encodeUsername "bob" }

def twoWaiting : Surroundings := { Surroundings.empty with
  active := [failedLogin, secondLogin]
  appended := [failedLogin, secondLogin] }

def commitsEvent : WorkerExchange → Bool
  | ⟨.commitTransaction .event, .ok ()⟩ => true
  | _ => false

def cutLife : List WorkerExchange :=
  let whole := life twoWaiting.server 4 []
  whole.take (whole.findIdx commitsEvent + 1)

def afterCut : Surroundings := (twoWaiting.served cutLife).crash

/-- The first record was committed and not removed; the next life finds its
receipt, and goes on to the second. -/
theorem twoWaiting_exactlyOnce :
    ∃ final, Reachable afterCut ∧
      afterCut.effects.map Effect.username = ["alice"] ∧
      afterCut.processing = some [failedLogin, secondLogin] ∧
      afterCut.Hosts (life afterCut.server 5 []) final ∧
      final.effects.map Effect.username = ["alice", "bob"] ∧
      final.processing = none ∧ ExactlyOnce final := by
  have produces : Surroundings.empty.Produces twoWaiting :=
    .append failedLogin (by simp [Surroundings.empty])
      (.append secondLogin (by decide) (.nothing _))
  have prefixed : cutLife <+: life twoWaiting.server 4 [] :=
    List.take_prefix _ _
  have answered : twoWaiting.Answered cutLife := by
    rcases prefixed with ⟨rest, whole⟩
    have answers := twoWaiting.answered_life 4
    rw [← whole] at answers
    exact answers.cut
  have reachable : Reachable afterCut :=
    .life twoWaiting.server 4 [] prefixed .empty
      (Surroundings.Hosts.append (.nil produces) answered.hosts)
  have hosts := (afterCut.answered_life 5).hosts
  exact ⟨_, reachable, by decide, by decide, hosts,
    by decide, by decide,
    (loop_exactlyOnce reachable afterCut.server 5 [] (List.prefix_refl _)
      hosts).1⟩

end PasswordProfile.Worker.LoopReplay
