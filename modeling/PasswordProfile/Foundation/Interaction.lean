import Mathlib.Data.List.Basic

/-! # Programs that act by calls

A program performs calls one after the other and an environment answers them.
Nothing is assumed about the answers: they may depend on everything exchanged
so far and on whatever else goes on.
-/

namespace PasswordProfile.Interaction

inductive Program (Call : Type u) (Answer : Call → Type v) (Result : Type w)
  | done (result : Result)
  | ask (call : Call) (next : Answer call → Program Call Answer Result)

abbrev Exchange {Call : Type u} (Answer : Call → Type v) := Sigma Answer

/-- The answer to a call, given all exchanges before it. -/
abbrev Environment {Call : Type u} (Answer : Call → Type v) :=
  List (Exchange Answer) → (call : Call) → Answer call

namespace Program

variable {Call : Type u} {Answer : Call → Type v} {Result : Type w}
  {Final : Type w}

def bind : Program Call Answer Result →
    (Result → Program Call Answer Final) → Program Call Answer Final
  | done result, next => next result
  | ask call rest, next => ask call fun answer => (rest answer).bind next

instance : Monad (Program Call Answer) where
  pure := done
  bind := bind

def perform (call : Call) : Program Call Answer (Answer call) :=
  ask call done

/-- The exchanges of a whole run and its result. -/
def run (environment : Environment Answer) :
    Program Call Answer Result → List (Exchange Answer) →
      List (Exchange Answer) × Result
  | done result, _ => ([], result)
  | ask call next, history =>
      let answer := environment history call
      let (trace, result) :=
        run environment (next answer) (history ++ [⟨call, answer⟩])
      (⟨call, answer⟩ :: trace, result)

def Ensures : Program Call Answer Result →
    (List (Exchange Answer) → Result → Prop) → Prop
  | done result, Post => Post [] result
  | ask call next, Post => ∀ answer, (next answer).Ensures
      fun trace result => Post (⟨call, answer⟩ :: trace) result

/-! ## Rules -/

variable {program : Program Call Answer Result}
  {Post : List (Exchange Answer) → Result → Prop}

theorem Ensures.run (ensures : program.Ensures Post)
    (environment : Environment Answer) (history : List (Exchange Answer)) :
    Post (program.run environment history).1
      (program.run environment history).2 := by
  induction program generalizing Post history with
  | done result => exact ensures
  | ask call next induction =>
      exact induction (environment history call)
        (ensures (environment history call))
        (history ++ [⟨call, environment history call⟩])

theorem run_bind (environment : Environment Answer)
    (first : Program Call Answer Result)
    (next : Result → Program Call Answer Final)
    (history : List (Exchange Answer)) :
    ((first >>= next).run environment history).2 =
      ((next (first.run environment history).2).run environment
        (history ++ (first.run environment history).1)).2 := by
  change ((first.bind next).run environment history).2 = _
  induction first generalizing history with
  | done result =>
      rw [run, List.append_nil]
      rfl
  | ask call rest induction =>
      rw [Program.bind, run, induction]
      simp [run]

theorem answer_of_mem_run {environment : Environment Answer}
    {history : List (Exchange Answer)} {exchange : Exchange Answer}
    (member : exchange ∈ (program.run environment history).1) :
    ∃ earlier, exchange.2 = environment earlier exchange.1 := by
  induction program generalizing history with
  | done result => cases member
  | ask call next induction =>
      rcases List.mem_cons.mp member with rfl | member
      · exact ⟨history, rfl⟩
      · exact induction _ member

theorem Ensures.mono {Weaker : List (Exchange Answer) → Result → Prop}
    (ensures : program.Ensures Post)
    (weaken : ∀ trace result, Post trace result → Weaker trace result) :
    program.Ensures Weaker := by
  induction program generalizing Post Weaker with
  | done result => exact weaken [] result ensures
  | ask call next induction =>
      intro answer
      apply induction answer (ensures answer)
      exact fun trace result => weaken (⟨call, answer⟩ :: trace) result

theorem ensures_of_forall (always : ∀ trace result, Post trace result) :
    program.Ensures Post := by
  induction program generalizing Post with
  | done result => exact always [] result
  | ask call next induction =>
      intro answer
      apply induction answer
      exact fun trace result => always (⟨call, answer⟩ :: trace) result

@[simp] theorem ensures_pure (result : Result) :
    (pure result : Program Call Answer Result).Ensures Post ↔
      Post [] result := Iff.rfl

theorem ensures_bind {first : Program Call Answer Result}
    {next : Result → Program Call Answer Final}
    {Post : List (Exchange Answer) → Final → Prop} :
    (first >>= next).Ensures Post ↔ first.Ensures fun trace result =>
      (next result).Ensures fun later final => Post (trace ++ later) final := by
  change (first.bind next).Ensures Post ↔ _
  induction first generalizing Post with
  | done result => rfl
  | ask call rest induction =>
      apply forall_congr'
      intro answer
      exact induction answer

theorem ensures_perform_bind {Call : Type u} {Answer : Call → Type v}
    {Final : Type v} {call : Call} {next : Answer call →
      Program Call Answer Final}
    {Post : List (Exchange Answer) → Final → Prop} :
    (perform call >>= next).Ensures Post ↔ ∀ answer,
      (next answer).Ensures fun trace final =>
        Post (⟨call, answer⟩ :: trace) final := Iff.rfl

/-- A rule for sequencing: what the first part ensures is a hypothesis about
the second. -/
theorem Ensures.bind {First : List (Exchange Answer) → Result → Prop}
    {next : Result → Program Call Answer Final}
    {Whole : List (Exchange Answer) → Final → Prop}
    (first : program.Ensures First)
    (second : ∀ trace result, First trace result →
      (next result).Ensures fun later final => Whole (trace ++ later) final) :
    (program >>= next).Ensures Whole :=
  ensures_bind.mpr (first.mono second)

end Program

end PasswordProfile.Interaction
