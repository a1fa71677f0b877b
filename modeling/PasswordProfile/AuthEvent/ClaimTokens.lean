import PasswordProfile.AuthEvent.Enqueue
import PasswordProfile.Foundation.Execution
import Mathlib.Data.List.Forall2

/-! # Claim tokens over the life of the shared memory

A token names a slot and a sequence number. Beside the ring this module keeps
which acceptance each queued event and each token came from, so that a token
can be compared with the event it is used on, however much later.
-/

namespace PasswordProfile.AuthEvent.ClaimTokens

open AuthEventRing Execution

/-- Acceptances are told apart by their position in `accepted`. -/
structure Lifetime where
  ring : AuthEventRing
  /-- The acceptances waiting in the ring, oldest first. -/
  queue : List Nat
  accepted : List SharedAuthEvent
  /-- Every token handed out, with the acceptance it was claimed for. -/
  claimed : List (ClaimToken × Nat)
  /-- For every accepted acknowledgement, the acceptance of its token and the
  one it took from the ring. -/
  acknowledged : List (Nat × Nat)

inductive Action
  | tryEnqueue (offer : Offer)
  | claim
  /-- Use one of the tokens handed out so far. -/
  | ack (held : Nat)
  | degradeToCorrupt
  | recover (verified : Bool)
  deriving DecidableEq

def initial : Lifetime where
  ring := AuthEventRing.new
  queue := []
  accepted := []
  claimed := []
  acknowledged := []

def Resets (ring : AuthEventRing) (verified : Bool) : Prop :=
  ring.queueState = .corrupt ∧ verified = true

instance (ring : AuthEventRing) (verified : Bool) :
    Decidable (Resets ring verified) :=
  inferInstanceAs (Decidable (_ ∧ _))

def step (life : Lifetime) : Action → Option Lifetime
  | .tryEnqueue offer =>
      let (ring, result) := life.ring.offerTo offer
      if result.outcome = .enqueued then
        some { life with
          ring
          queue := life.queue ++ [life.accepted.length]
          accepted := life.accepted ++ [offer.event life.ring.nextSeq] }
      else some { life with ring }
  | .claim =>
      match life.ring.claim, life.queue with
      | (ring, some (token, _)), acceptance :: _ =>
          some { life with
            ring
            claimed := life.claimed ++ [(token, acceptance)] }
      | (ring, _), _ => some { life with ring }
  | .ack held =>
      match life.claimed[held]? with
      | none => none
      | some (token, owner) =>
          match life.ring.ack token, life.queue with
          | (ring, .acknowledged), acceptance :: rest =>
              some { life with
                ring
                queue := rest
                acknowledged := life.acknowledged ++ [(owner, acceptance)] }
          | (ring, _), _ => some { life with ring }
  | .degradeToCorrupt =>
      some { life with ring := life.ring.degradeTo .corrupt }
  | .recover verified =>
      some { life with
        ring := life.ring.recoverCorruptRing verified
        queue := if Resets life.ring verified then [] else life.queue }

def machine : Machine Lifetime Action := ⟨step⟩

/-- No sequence number was given twice, and every acknowledgement took the
event its token was claimed for. -/
structure Unique (life : Lifetime) : Prop where
  numbers : (life.accepted.map SharedAuthEvent.seq).Nodup
  tokens : ∀ pair ∈ life.acknowledged, pair.1 = pair.2

/-- No recovery resets a ring that has given out a sequence number. -/
def ResetsUnused (life : Lifetime) : Action → Prop
  | .recover verified => Resets life.ring verified → life.ring.nextSeq = 1
  | _ => True

instance : ∀ life action, Decidable (ResetsUnused life action)
  | _, .recover _ => inferInstanceAs (Decidable (_ → _))
  | _, .tryEnqueue _ => .isTrue trivial
  | _, .claim => .isTrue trivial
  | _, .ack _ => .isTrue trivial
  | _, .degradeToCorrupt => .isTrue trivial

/-! ## What the run keeps -/

structure Tracks (life : Lifetime) : Prop where
  formed : life.ring.WellFormed
  queued : List.Forall₂ (fun acceptance event =>
    life.accepted[acceptance]? = some event) life.queue life.ring.contents
  numbered : ∀ acceptance event, life.accepted[acceptance]? = some event →
    event.seq = acceptance + 1
  counted : life.ring.nextSeq = life.accepted.length + 1
  claims : ∀ held ∈ life.claimed, ∃ event,
    life.accepted[held.2]? = some event ∧ event.seq = held.1.seq
  matched : ∀ pair ∈ life.acknowledged, pair.1 = pair.2

theorem tracks_initial : Tracks initial where
  formed := wellFormed_new
  queued := .nil
  numbered := by
    intro acceptance event found
    cases found
  counted := rfl
  claims := by
    intro held member
    cases member
  matched := by
    intro pair member
    cases member

namespace Tracks

variable {life : Lifetime}

theorem acceptance_eq (tracks : Tracks life) {first second : Nat}
    {firstEvent secondEvent : SharedAuthEvent}
    (atFirst : life.accepted[first]? = some firstEvent)
    (atSecond : life.accepted[second]? = some secondEvent)
    (sameSeq : firstEvent.seq = secondEvent.seq) : first = second := by
  have firstNumber := tracks.numbered first firstEvent atFirst
  have secondNumber := tracks.numbered second secondEvent atSecond
  omega

theorem unique (tracks : Tracks life) : Unique life where
  numbers := by
    rw [List.Nodup, List.pairwise_map, List.pairwise_iff_getElem]
    intro first second inFirst inSecond less sameSeq
    have equal := tracks.acceptance_eq (List.getElem?_eq_getElem inFirst)
      (List.getElem?_eq_getElem inSecond) sameSeq
    omega
  tokens := tracks.matched

theorem sameQueue (tracks : Tracks life) {ring : AuthEventRing}
    (same : SameQueue life.ring ring) (formed : ring.WellFormed) :
    Tracks { life with ring } where
  formed := formed
  queued := by
    change List.Forall₂ _ life.queue ring.contents
    rw [same.contents]
    exact tracks.queued
  numbered := tracks.numbered
  counted := same.nextSeq.trans tracks.counted
  claims := tracks.claims
  matched := tracks.matched

theorem push (tracks : Tracks life) {offer : Offer}
    (room : advance life.ring.head ≠ life.ring.tail)
    (available : life.ring.nextSeq ≠ u64Max) :
    Tracks { life with
      ring := life.ring.push offer
      queue := life.queue ++ [life.accepted.length]
      accepted := life.accepted ++ [offer.event life.ring.nextSeq] } where
  formed := wellFormed_push tracks.formed room available offer
  queued := by
    change List.Forall₂ _ (life.queue ++ [life.accepted.length])
      (life.ring.push offer).contents
    rw [push_contents tracks.formed room offer]
    apply List.rel_append
    · exact tracks.queued.imp fun acceptance event found => by
        rw [List.getElem?_append_left (List.getElem?_eq_some_iff.mp found).1]
        exact found
    · exact .cons (by simp) .nil
  numbered := by
    intro acceptance event found
    by_cases earlier : acceptance < life.accepted.length
    · rw [List.getElem?_append_left earlier] at found
      exact tracks.numbered acceptance event found
    · have last := (List.getElem?_eq_some_iff.mp found).1
      rw [List.length_append, List.length_singleton] at last
      have position : acceptance = life.accepted.length := by omega
      rw [position, List.getElem?_concat_length] at found
      cases found
      rw [position]
      exact tracks.counted
  counted := by
    change life.ring.nextSeq + 1 = _
    rw [tracks.counted, List.length_append, List.length_singleton]
  claims := by
    intro held member
    rcases tracks.claims held member with ⟨event, found, same⟩
    refine ⟨event, ?_, same⟩
    rw [List.getElem?_append_left (List.getElem?_eq_some_iff.mp found).1]
    exact found
  matched := tracks.matched

theorem oldest (tracks : Tracks life)
    (nonempty : life.ring.head ≠ life.ring.tail) :
    ∃ acceptance rest, life.queue = acceptance :: rest ∧
      life.accepted[acceptance]? =
        some (life.ring.events (slot life.ring.tail)) ∧
      List.Forall₂ (fun acceptance event =>
        life.accepted[acceptance]? = some event) rest
          life.ring.pop.contents := by
  have queued := tracks.queued
  rw [pop_contents tracks.formed nonempty] at queued
  rcases List.forall₂_cons_right_iff.mp queued with
    ⟨acceptance, rest, found, later, equal⟩
  exact ⟨acceptance, rest, equal, found, later⟩

theorem tryEnqueue (tracks : Tracks life) {offer : Offer} {next : Lifetime}
    (stepped : step life (.tryEnqueue offer) = some next) : Tracks next := by
  simp only [step] at stepped
  rcases offerTo_cases tracks.formed offer with
    ⟨refused, same, _, _, overflow⟩ | ⟨enqueued, _, room, available, pushed⟩
  · rw [if_neg refused] at stepped
    cases stepped
    exact tracks.sameQueue same (same.wellFormed tracks.formed overflow)
  · rw [if_pos enqueued] at stepped
    cases stepped
    rw [pushed]
    exact tracks.push room available

theorem claim (tracks : Tracks life) {next : Lifetime}
    (stepped : step life .claim = some next) : Tracks next := by
  simp only [step] at stepped
  rw [claim_eq tracks.formed] at stepped
  by_cases empty : life.ring.head = life.ring.tail
  · have nothing : life.ring.contents = [] := by
      rw [← List.length_eq_zero_iff, tracks.formed.contents_length]
      exact tracks.formed.head_eq_tail_iff.mp empty
    rw [nothing] at stepped
    cases stepped
    exact tracks
  · rcases tracks.oldest empty with ⟨acceptance, rest, queue, found, _⟩
    rw [pop_contents tracks.formed empty, queue] at stepped
    cases stepped
    refine { tracks with queued := queue ▸ tracks.queued, claims := ?_ }
    intro held member
    rcases List.mem_append.mp member with earlier | last
    · exact tracks.claims held earlier
    · rw [List.mem_singleton.mp last]
      exact ⟨_, found, rfl⟩

theorem ack (tracks : Tracks life) {held : Nat} {next : Lifetime}
    (stepped : step life (.ack held) = some next) : Tracks next := by
  simp only [step] at stepped
  cases chosen : life.claimed[held]? with
  | none =>
      rw [chosen] at stepped
      cases stepped
  | some pair =>
      rcases pair with ⟨token, owner⟩
      rcases tracks.claims (token, owner) (List.mem_of_getElem? chosen) with
        ⟨event, claimedFor, sameSeq⟩
      rcases ack_cases tracks.formed token with
        ⟨nonempty, _, current, result⟩ | ⟨result, _⟩
      · rcases tracks.oldest nonempty with
          ⟨acceptance, rest, queue, found, later⟩
        have same : owner = acceptance :=
          tracks.acceptance_eq claimedFor found (sameSeq.trans current)
        simp only [chosen, result, queue] at stepped
        cases stepped
        exact
          { formed := wellFormed_pop tracks.formed nonempty
            queued := later
            numbered := tracks.numbered
            counted := (pop_nextSeq _).trans tracks.counted
            claims := tracks.claims
            matched := by
              intro pair member
              rcases List.mem_append.mp member with earlier | last
              · exact tracks.matched pair earlier
              · rw [List.mem_singleton.mp last]
                exact same }
      · simp only [chosen, result] at stepped
        cases stepped
        exact tracks

theorem recover (tracks : Tracks life) {verified : Bool} {next : Lifetime}
    (unused : ResetsUnused life (.recover verified))
    (stepped : step life (.recover verified) = some next) : Tracks next := by
  simp only [step] at stepped
  by_cases resets : Resets life.ring verified
  · have first : life.ring.nextSeq = 1 := unused resets
    have nothing : life.accepted.length = 0 := by
      have counted := tracks.counted
      omega
    have fresh : life.ring.recoverCorruptRing verified = new :=
      if_pos resets
    rw [fresh, if_pos resets, Option.some.injEq] at stepped
    rw [← stepped]
    exact
      { formed := wellFormed_new
        queued := by
          have empty : new.contents = [] := rfl
          change List.Forall₂ _ [] new.contents
          rw [empty]
          exact .nil
        numbered := tracks.numbered
        counted := by
          rw [nothing]
          rfl
        claims := tracks.claims
        matched := tracks.matched }
  · have kept : life.ring.recoverCorruptRing verified = life.ring :=
      if_neg resets
    rw [kept, if_neg resets] at stepped
    cases stepped
    exact tracks

theorem step (tracks : Tracks life) {action : Action} {next : Lifetime}
    (unused : ResetsUnused life action)
    (stepped : machine.step life action = some next) : Tracks next := by
  cases action with
  | tryEnqueue offer => exact tracks.tryEnqueue stepped
  | claim => exact tracks.claim stepped
  | ack held => exact tracks.ack stepped
  | degradeToCorrupt =>
      cases stepped
      exact tracks.sameQueue (sameQueue_degradeTo life.ring .corrupt)
        (wellFormed_degradeTo_corrupt tracks.formed)
  | recover verified => exact tracks.recover unused stepped

end Tracks

/-- After the reset of a used ring the next acceptance repeats a number. -/
theorem Tracks.repeats_after_reset {life after : Lifetime}
    (tracks : Tracks life) {verified : Bool}
    (used : ¬ResetsUnused life (.recover verified)) {offer : Offer}
    (completed : machine.run life [.recover verified, .tryEnqueue offer] =
      some after) : ¬Unique after := by
  simp only [ResetsUnused, Classical.not_imp] at used
  rcases used with ⟨resets, used⟩
  have fresh : life.ring.recoverCorruptRing verified = new := if_pos resets
  have enqueued : (new.offerTo offer).2.outcome = .enqueued := rfl
  simp only [Machine.run, machine, ClaimTokens.step, fresh, enqueued,
    if_true, Option.some.injEq] at completed
  have number : (new.nextSeq : Nat) = 1 := rfl
  intro unique
  have numbers := unique.numbers
  rw [← completed, List.map_append, List.nodup_append] at numbers
  have counted := tracks.counted
  have present : 0 < life.accepted.length := by omega
  have first := tracks.numbered 0 _ (List.getElem?_eq_getElem present)
  apply numbers.2.2 1 _ 1 _ rfl
  · rw [List.mem_map]
    exact ⟨_, List.getElem_mem present, first⟩
  · simp [Offer.event, number]

/-- A run that never resets a used ring gives every accepted event a number of
its own, and each token is accepted for its own event only. The first reset of
a used ring makes the very next accepted event break this. -/
theorem tokens_unique {actions : List Action} {final : Lifetime}
    (unused : machine.EveryStep ResetsUnused initial actions)
    (completed : machine.run initial actions = some final) :
    Unique final ∧ ∀ verified offer after,
      ¬ResetsUnused final (.recover verified) →
      machine.run final [.recover verified, .tryEnqueue offer] = some after →
      ¬Unique after := by
  have tracks : Tracks final := Machine.run_invariant_of_everyStep
    (fun tracks unused stepped => tracks.step unused stepped)
    tracks_initial unused completed
  refine ⟨tracks.unique, ?_⟩
  intro verified offer after used continued
  exact tracks.repeats_after_reset used continued

def offerOf (byte : UInt8) : Offer where
  eventId := Vector.replicate 16 byte
  username := encodeUsername "alice"
  timestamp := 0
  kind := eventKindFailure
  flags := 0
  generation := 0

/-- An event is claimed, the queue becomes corrupt and is recovered, and the
old token is used after the next event came in. -/
def acrossReset : List Action :=
  [.tryEnqueue (offerOf 1), .claim, .degradeToCorrupt, .recover true,
    .tryEnqueue (offerOf 2), .ack 0]

theorem acrossReset_confuses :
    ¬∀ final, machine.run initial acrossReset = some final →
      Unique final := by
  intro always
  have summary : (machine.run initial acrossReset).map
      (fun life => life.acknowledged) = some [(0, 1)] := by
    decide
  rcases Option.map_eq_some_iff.mp summary with ⟨final, completed, read⟩
  have matched := (always final completed).tokens (0, 1) (by simp [read])
  cases matched

/-- Two rounds through the queue with an empty ring recovered before them. -/
def recoveredUnused : List Action :=
  [.degradeToCorrupt, .recover true, .tryEnqueue (offerOf 1), .claim, .ack 0,
    .tryEnqueue (offerOf 2), .claim, .ack 1]

theorem recoveredUnused_unique :
    ((machine.run initial recoveredUnused).map
        fun life => life.accepted.map SharedAuthEvent.seq) = some [1, 2] ∧
      ∀ final, machine.run initial recoveredUnused = some final →
        Unique final :=
  ⟨by decide, fun _ completed =>
    (tokens_unique (by decide) completed).1⟩

end PasswordProfile.AuthEvent.ClaimTokens
