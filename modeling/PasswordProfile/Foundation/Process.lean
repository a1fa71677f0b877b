import PasswordProfile.Foundation.Interaction

/-! # Processes that raise and repeat

A part of a process may raise instead of giving a result, and a process repeats
its body until it has one. A watch picks out the exchanges that ask the process
to stop and those after which nothing is left but to break off.
-/

namespace PasswordProfile.Interaction

variable {Call : Type u} {Answer : Call → Type v} {Raised : Type v}
  {Value Final Position Result : Type v}

abbrev Fallible (Answer : Call → Type v) (Raised Value : Type v) :=
  ExceptT Raised (Program Call Answer) Value

namespace Fallible

def perform (call : Call) : Fallible Answer Raised (Answer call) :=
  ExceptT.lift (Program.perform call)

/-- Perform the body up to `count` times. -/
def repeats (body : Position → Fallible Answer Raised (Position ⊕ Result))
    (environment : Environment Answer) :
    Nat → Position → List (Exchange Answer) →
      List (Exchange Answer) × (Position ⊕ Except Raised Result)
  | 0, position, _ => ([], .inl position)
  | count + 1, position, history =>
      match Program.run environment (body position).run history with
      | (trace, .error raised) => (trace, .inr (.error raised))
      | (trace, .ok (.inr result)) => (trace, .inr (.ok result))
      | (trace, .ok (.inl next)) =>
          let (later, final) :=
            repeats body environment count next (history ++ trace)
          (trace ++ later, final)

end Fallible

/-! ## Watches -/

structure Watch (Answer : Call → Type v) where
  halting : Exchange Answer → Bool
  breaking : Exchange Answer → Bool
  /-- What the environment may answer. -/
  Admissible : Exchange Answer → Prop

namespace Watch

variable (watch : Watch Answer)

def Accounts (announced : Value → Bool) (trace : List (Exchange Answer)) :
    Except Raised Value → Prop
  | .ok value =>
      trace.any watch.halting = announced value ∧
        trace.any watch.breaking = false
  | .error _ =>
      trace.any watch.halting = false ∧ trace.any watch.breaking = true

/-- The result announces whether the part was asked to stop, and the part only
raises when it breaks. -/
def Announces (program : Fallible Answer Raised Value)
    (announced : Value → Bool) : Prop :=
  Program.Ensures program.run fun trace result =>
    (∀ exchange ∈ trace, watch.Admissible exchange) →
      watch.Accounts announced trace result

def Raises (program : Fallible Answer Raised Value)
    (Recoverable : Raised → Prop) : Prop :=
  Program.Ensures program.run fun trace result =>
    (∀ exchange ∈ trace, watch.Admissible exchange) →
      trace.any watch.halting = false ∧ trace.any watch.breaking = false ∧
        ∀ raised, result = .error raised → Recoverable raised

/-! ## Rules -/

variable {watch} {announced : Value → Bool} {announcedFinal : Final → Bool}
  {Recoverable : Raised → Prop}

theorem announces_pure {value : Value} (silent : announced value = false) :
    watch.Announces (pure value : Fallible Answer Raised Value) announced :=
  fun _ => ⟨silent.symm, rfl⟩

theorem announces_perform {call : Call}
    (unbroken : ∀ answer, watch.breaking ⟨call, answer⟩ = false) :
    watch.Announces (Fallible.perform call :
        Fallible Answer Raised (Answer call))
      fun answer => watch.halting ⟨call, answer⟩ := by
  intro answer _
  constructor
  · rw [List.any_cons, List.any_nil, Bool.or_false]
  · rw [List.any_cons, List.any_nil, Bool.or_false]
    exact unbroken answer

theorem announces_mk {call : Call}
    {program : Program Call Answer (Except Raised Value)}
    {outcome : Answer call → Except Raised Value}
    (asks : program = .ask call fun answer => .done (outcome answer))
    (unasked : ∀ answer, watch.halting ⟨call, answer⟩ = false)
    (breaks : ∀ answer, watch.breaking ⟨call, answer⟩ =
      !(outcome answer).toBool) :
    watch.Announces (ExceptT.mk program) fun _ => false := by
  rw [asks]
  intro answer _
  have silent : [⟨call, answer⟩].any watch.halting = false := by
    rw [List.any_cons, List.any_nil, Bool.or_false]
    exact unasked answer
  have broken : [⟨call, answer⟩].any watch.breaking =
      !(outcome answer).toBool := by
    rw [List.any_cons, List.any_nil, Bool.or_false]
    exact breaks answer
  change watch.Accounts _ _ (outcome answer)
  generalize outcome answer = result at broken ⊢
  cases result with
  | ok value => exact ⟨silent, broken⟩
  | error raised => exact ⟨silent, broken⟩

theorem Announces.congr {program : Fallible Answer Raised Value}
    {other : Value → Bool} (announces : watch.Announces program announced)
    (same : ∀ value, announced value = other value) :
    watch.Announces program other := by
  rw [← funext same]
  exact announces

/-- Once a part announces that it was asked to stop, the rest must only hand
that on. -/
theorem Announces.bind {first : Fallible Answer Raised Value}
    {next : Value → Fallible Answer Raised Final}
    (announces : watch.Announces first announced)
    (continues : ∀ value, announced value = false →
      watch.Announces (next value) announcedFinal)
    (stops : ∀ value, announced value = true →
      ∃ final, next value = pure final ∧ announcedFinal final = true) :
    watch.Announces (first >>= next) announcedFinal := by
  apply Program.Ensures.bind announces
  intro trace result accounts
  cases result with
  | error raised =>
      intro admissible
      rw [List.append_nil] at admissible ⊢
      exact accounts admissible
  | ok value =>
      cases asked : announced value with
      | true =>
          rcases stops value asked with ⟨final, handsOn, announces⟩
          change Program.Ensures (next value).run _
          rw [handsOn]
          intro admissible
          rw [List.append_nil] at admissible ⊢
          rcases accounts admissible with ⟨halting, unbroken⟩
          exact ⟨halting.trans (asked.trans announces.symm), unbroken⟩
      | false =>
          apply (continues value asked).mono
          intro later final rest admissible
          have earlier := accounts fun exchange member =>
            admissible exchange (List.mem_append_left later member)
          have after := rest fun exchange member =>
            admissible exchange (List.mem_append_right trace member)
          rw [Accounts, asked] at earlier
          cases final with
          | ok value =>
              simpa [Accounts, earlier.1, earlier.2] using after
          | error raised =>
              simpa [Accounts, earlier.1, earlier.2] using after

theorem Announces.bind_quiet {first : Fallible Answer Raised Value}
    {next : Value → Fallible Answer Raised Final}
    (quiet : watch.Announces first fun _ => false)
    (continues : ∀ value, watch.Announces (next value) announcedFinal) :
    watch.Announces (first >>= next) announcedFinal :=
  quiet.bind (fun value _ => continues value) nofun

theorem raises_pure (value : Value) :
    watch.Raises (pure value : Fallible Answer Raised Value) Recoverable :=
  fun _ => ⟨rfl, rfl, nofun⟩

theorem raises_mk {call : Call}
    {program : Program Call Answer (Except Raised Value)}
    {outcome : Answer call → Except Raised Value}
    (asks : program = .ask call fun answer => .done (outcome answer))
    (quiet : ∀ answer, watch.halting ⟨call, answer⟩ = false ∧
      watch.breaking ⟨call, answer⟩ = false)
    (recoverable : ∀ answer raised, watch.Admissible ⟨call, answer⟩ →
      outcome answer = .error raised → Recoverable raised) :
    watch.Raises (ExceptT.mk program) Recoverable := by
  rw [asks]
  intro answer admissible
  refine ⟨?_, ?_, fun raised => recoverable answer raised
    (admissible _ List.mem_cons_self)⟩
  · rw [List.any_cons, List.any_nil, Bool.or_false]
    exact (quiet answer).1
  · rw [List.any_cons, List.any_nil, Bool.or_false]
    exact (quiet answer).2

theorem raises_perform {call : Call}
    (quiet : ∀ answer, watch.halting ⟨call, answer⟩ = false ∧
      watch.breaking ⟨call, answer⟩ = false) :
    watch.Raises (Fallible.perform call :
      Fallible Answer Raised (Answer call)) Recoverable :=
  @raises_mk _ _ _ _ watch _ call _ Except.ok rfl quiet nofun

theorem Raises.bind {first : Fallible Answer Raised Value}
    {next : Value → Fallible Answer Raised Final}
    (raises : watch.Raises first Recoverable)
    (continues : ∀ value, watch.Raises (next value) Recoverable) :
    watch.Raises (first >>= next) Recoverable := by
  apply Program.Ensures.bind raises
  intro trace result earlier
  cases result with
  | error raised =>
      intro admissible
      rw [List.append_nil] at admissible ⊢
      rcases earlier admissible with ⟨unasked, unbroken, recoverable⟩
      exact ⟨unasked, unbroken, fun other same =>
        recoverable other (by cases same; rfl)⟩
  | ok value =>
      apply (continues value).mono
      intro later final rest admissible
      have before := earlier fun exchange member =>
        admissible exchange (List.mem_append_left later member)
      have after := rest fun exchange member =>
        admissible exchange (List.mem_append_right trace member)
      rw [List.any_append, List.any_append, before.1, before.2.1]
      exact after

theorem Raises.tryCatch {program : Fallible Answer Raised Value}
    {handler : Raised → Fallible Answer Raised Value}
    (raises : watch.Raises program Recoverable)
    (handles : ∀ raised, Recoverable raised →
      watch.Announces (handler raised) fun _ => false) :
    watch.Announces (MonadExcept.tryCatch program handler)
      fun _ => false := by
  apply Program.Ensures.bind raises
  intro trace result earlier
  cases result with
  | ok value =>
      intro admissible
      rw [List.append_nil] at admissible ⊢
      rcases earlier admissible with ⟨unasked, unbroken, _⟩
      exact ⟨unasked, unbroken⟩
  | error raised =>
      change Program.Ensures (handler raised).run _
      by_cases allowed : ∀ exchange ∈ trace, watch.Admissible exchange
      · rcases earlier allowed with ⟨unasked, unbroken, recoverable⟩
        apply (handles raised (recoverable raised rfl)).mono
        intro later result rest admissible
        have after := rest fun exchange member =>
          admissible exchange (List.mem_append_right trace member)
        cases result with
        | ok value => simpa [Accounts, unasked, unbroken] using after
        | error other => simpa [Accounts, unasked, unbroken] using after
      · apply Program.ensures_of_forall
        intro later result admissible
        exact absurd (fun exchange member => admissible exchange
          (List.mem_append_left later member)) allowed

/-! ## Whole processes -/

def Follows (trace : List (Exchange Answer)) :
    Position ⊕ Except Raised Result → Prop
  | .inl _ =>
      trace.any watch.halting = false ∧ trace.any watch.breaking = false
  | .inr (.ok _) =>
      trace.any watch.halting = true ∧ trace.any watch.breaking = false
  | .inr (.error _) =>
      trace.any watch.halting = false ∧ trace.any watch.breaking = true

theorem Follows.append {trace later : List (Exchange Answer)}
    {final : Position ⊕ Except Raised Result}
    (unasked : trace.any watch.halting = false)
    (unbroken : trace.any watch.breaking = false)
    (follows : watch.Follows later final) :
    watch.Follows (trace ++ later) final := by
  rcases final with position | raised | result
  · simpa [Follows, unasked, unbroken] using follows
  · simpa [Follows, unasked, unbroken] using follows
  · simpa [Follows, unasked, unbroken] using follows

variable {body : Position → Fallible Answer Raised (Position ⊕ Result)}

/-- A process whose body announces its end ends when it is asked to stop or
breaks, and not otherwise. -/
theorem repeats_follows
    (announces : ∀ position, watch.Announces (body position) Sum.isRight)
    (environment : Environment Answer) (count : Nat) (position : Position)
    (history : List (Exchange Answer))
    (admissible : ∀ exchange ∈
      (Fallible.repeats body environment count position history).1,
      watch.Admissible exchange) :
    watch.Follows
      (Fallible.repeats body environment count position history).1
      (Fallible.repeats body environment count position history).2 := by
  induction count generalizing position history with
  | zero => exact ⟨rfl, rfl⟩
  | succ count induction =>
      have accounts := (announces position).run environment history
      rw [Fallible.repeats] at admissible ⊢
      rcases reached : Program.run environment (body position).run history with
        ⟨trace, raised | next | result⟩
      · rw [reached] at accounts admissible
        exact accounts admissible
      · rw [reached] at accounts admissible
        have first := accounts fun exchange member =>
          admissible exchange (List.mem_append_left _ member)
        exact (induction next (history ++ trace) fun exchange member =>
          admissible exchange (List.mem_append_right _ member)).append
            first.1 first.2
      · rw [reached] at accounts admissible
        exact accounts admissible

/-- Such a process only ends when it is asked to stop, exactly as long as it
does not break. -/
theorem Follows.halts_iff {trace : List (Exchange Answer)}
    {final : Position ⊕ Except Raised Result}
    (follows : watch.Follows trace final) :
    (final.isRight = true → trace.any watch.halting = true) ↔
      trace.any watch.breaking = false := by
  rcases final with position | raised | result
  · exact iff_of_true nofun follows.2
  · rw [follows.1, follows.2]
    simp
  · exact iff_of_true (fun _ => follows.1) follows.2

end Watch

end PasswordProfile.Interaction
