import PasswordProfile.Foundation.LockedSections

/-! # Sections are atomic

Every run of disciplined sections looks from outside like a run in which each
of them takes its whole effect at one moment between its start and its end.
-/

namespace PasswordProfile.LockedSections

open Execution Interaction

/-! ## Cells that nobody changes -/

section Settled

variable {layout : Layout} [DecidableEq layout.Lock] {code : Code layout}
  {size : Nat} {process : Fin size → Option (Process code)}

def Settled (process : Fin size → Option (Process code))
    (cell : layout.Cell) : Prop :=
  ∀ id, ∀ running ∈ process id, ¬running.holding.Owns cell

theorem settled_of_update {id : Fin size} {process' : Option (Process code)}
    {cell : layout.Cell}
    (settled : Settled (Function.update process id process') cell)
    (before : ∀ running ∈ process id, ¬running.holding.Owns cell) :
    Settled process cell := by
  intro other running isRunning
  by_cases here : other = id
  · subst here
    exact before running isRunning
  · apply settled other running
    rw [Function.update_of_ne here]
    exact isRunning

theorem Settled.own {id : Fin size} {running : Process code}
    {cell : layout.Cell}
    (settled : Settled (Function.update process id (some running)) cell) :
    ¬running.holding.Owns cell := by
  apply settled id running
  rw [Function.update_self]
  rfl

end Settled

/-! ## Sections that have released a lock -/

section Shrinking

variable {layout : Layout} [DecidableEq layout.Lock]
  [DecidableEq layout.Cell] {Result : Type} {part : Section layout Result}
  {holding : Holding layout}

theorem alone_eq_of_not_owns (keeps : Keeps part holding)
    (released : holding.released = true) (memory : Memory layout)
    {cell : layout.Cell} (foreign : ¬holding.Owns cell) :
    (alone part memory).1 cell = memory cell := by
  induction part generalizing holding memory with
  | done result => rfl
  | ask access next induction =>
      have rest := keeps.next (access.answer memory)
      cases access with
      | acquire lock mode =>
          have growing := keeps.permits.1
          rw [released] at growing
          cases growing
      | release lock =>
          exact induction _ rest rfl memory fun owns =>
            foreign (Holding.owns_of_release owns)
      | read other => exact induction _ rest released memory foreign
      | write other value =>
          have different : cell ≠ other := by
            rintro rfl
            exact foreign keeps.permits
          rw [alone, induction _ rest released _ foreign]
          exact Function.update_of_ne different value memory

theorem alone_congr (keeps : Keeps part holding)
    (released : holding.released = true) {first second : Memory layout}
    (agree : ∀ cell, holding.Holds cell → first cell = second cell) :
    (alone part first).2 = (alone part second).2 ∧
      ∀ cell, holding.Holds cell →
        (alone part first).1 cell = (alone part second).1 cell := by
  induction part generalizing holding first second with
  | done result => exact ⟨rfl, agree⟩
  | ask access next induction =>
      have rest := keeps.next (access.answer first)
      cases access with
      | acquire lock mode =>
          have growing := keeps.permits.1
          rw [released] at growing
          cases growing
      | release lock =>
          have later := induction () rest rfl fun cell holds =>
            agree cell (Holding.holds_of_release holds).1
          refine ⟨later.1, ?_⟩
          intro cell holds
          by_cases given : layout.guard cell = lock
          · have foreign : ¬(holding.after (.release lock)).Owns cell :=
              fun owns => (Holding.holds_of_release
                (Holding.owns_holds owns)).2 given
            calc (alone (next ()) first).1 cell = first cell :=
                  alone_eq_of_not_owns rest rfl first foreign
              _ = second cell := agree cell holds
              _ = (alone (next ()) second).1 cell :=
                  (alone_eq_of_not_owns rest rfl second foreign).symm
          · apply later.2 cell
            simpa [Holding.Holds, Holding.after,
              Function.update_of_ne given] using holds
      | read other =>
          have same : first other = second other := agree other keeps.permits
          have later := induction (first other) rest released agree
          change (alone (next (first other)) first).2 =
              (alone (next (second other)) second).2 ∧
            ∀ cell, holding.Holds cell →
              (alone (next (first other)) first).1 cell =
                (alone (next (second other)) second).1 cell
          rw [← same]
          exact later
      | write other value =>
          apply induction () rest released
          intro cell holds
          by_cases same : cell = other
          · subst same
            simp [Access.effect]
          · simp [Access.effect, Function.update_of_ne same,
              agree cell holds]

end Shrinking

/-! ## The simulation

Beside the memory there is a shadow memory: the one in which every section that
has released a lock is through, and every other has not begun. -/

def Holding.overlay {layout : Layout} (holding : Holding layout)
    (memory other : Memory layout) : Memory layout :=
  fun cell => if holding.Holds cell then memory cell else other cell

theorem Holding.overlay_empty {layout : Layout} {holding : Holding layout}
    (empty : holding.Empty) (memory other : Memory layout) :
    holding.overlay memory other = other := by
  funext cell
  rw [overlay, if_neg fun holds => holds (empty _)]

section Simulation

variable {layout : Layout} [DecidableEq layout.Lock]
  [DecidableEq layout.Cell] {code : Code layout} {size : Nat}

inductive Fits (memory shadow : Memory layout) :
    Option (Process code) → Option (Phase code) → Prop
  | idle : Fits memory shadow none none
  | growing {operation : code.Operation}
      {rest : Section layout (code.Result operation)}
      {holding : Holding layout} (keeps : Keeps rest holding)
      (grows : holding.released = false)
      (replays : ∀ other, (∀ cell, holding.Holds cell →
          other cell = shadow cell) →
        alone (code.body operation) other =
          alone rest (holding.overlay memory other)) :
      Fits memory shadow (some ⟨operation, rest, holding⟩)
        (some (.invoked operation))
  | shrinking {operation : code.Operation}
      {rest : Section layout (code.Result operation)}
      {holding : Holding layout} {result : code.Result operation}
      (keeps : Keeps rest holding) (shrinks : holding.released = true)
      (completes : ∀ other, (∀ cell, holding.Holds cell →
          other cell = memory cell) →
        (alone rest other).2 = result ∧ ∀ cell, holding.Holds cell →
          (alone rest other).1 cell = shadow cell) :
      Fits memory shadow (some ⟨operation, rest, holding⟩)
        (some (.effected operation result))

theorem Fits.congr {memory shadow memory' shadow' : Memory layout}
    {process : Option (Process code)} {phase : Option (Phase code)}
    (fits : Fits memory shadow process phase)
    (same : ∀ running ∈ process, ∀ cell, running.holding.Holds cell →
      memory' cell = memory cell ∧ shadow' cell = shadow cell) :
    Fits memory' shadow' process phase := by
  cases fits with
  | idle => exact .idle
  | @growing operation rest holding keeps grows replays =>
      have held : ∀ cell, holding.Holds cell →
          memory' cell = memory cell ∧ shadow' cell = shadow cell :=
        same ⟨operation, rest, holding⟩ rfl
      apply Fits.growing keeps grows
      intro other agree
      have overlays : holding.overlay memory' other =
          holding.overlay memory other := by
        funext cell
        rw [Holding.overlay, Holding.overlay]
        split
        · next holds => exact (held cell holds).1
        · rfl
      rw [overlays]
      apply replays other
      intro cell holds
      rw [agree cell holds, (held cell holds).2]
  | @shrinking operation rest holding result keeps shrinks completes =>
      have held : ∀ cell, holding.Holds cell →
          memory' cell = memory cell ∧ shadow' cell = shadow cell :=
        same ⟨operation, rest, holding⟩ rfl
      apply Fits.shrinking keeps shrinks
      intro other agree
      have before := completes other fun cell holds => by
        rw [agree cell holds, (held cell holds).1]
      refine ⟨before.1, ?_⟩
      intro cell holds
      rw [before.2 cell holds, (held cell holds).2]

structure Explains (memory : Memory layout)
    (process : Fin size → Option (Process code)) (shadow : Memory layout)
    (phase : Fin size → Option (Phase code)) : Prop where
  compatible : ∀ id other, id ≠ other → ∀ running ∈ process id,
    ∀ rival ∈ process other, running.holding.Compatible rival.holding
  settled : ∀ cell, Settled process cell → shadow cell = memory cell
  fits : ∀ id, Fits memory shadow (process id) (phase id)

section

variable {memory shadow : Memory layout}
  {process : Fin size → Option (Process code)}
  {phase : Fin size → Option (Phase code)}

theorem Explains.move (explains : Explains memory process shadow phase)
    (id : Fin size) {memory' shadow' : Memory layout}
    {process' : Option (Process code)} {phase' : Option (Phase code)}
    (fits : Fits memory' shadow' process' phase')
    (elsewhere : ∀ other, id ≠ other → ∀ rival ∈ process other,
      ∀ cell, rival.holding.Holds cell →
        memory' cell = memory cell ∧ shadow' cell = shadow cell)
    (compatible : ∀ running ∈ process', ∀ other, id ≠ other →
      ∀ rival ∈ process other, running.holding.Compatible rival.holding)
    (settled : ∀ cell, Settled (Function.update process id process') cell →
      shadow' cell = memory' cell) :
    Explains memory' (Function.update process id process') shadow'
      (Function.update phase id phase') where
  compatible first second different running isRunning rival isRival := by
    by_cases here : first = id
    · subst here
      rw [Function.update_self] at isRunning
      rw [Function.update_of_ne different.symm] at isRival
      exact compatible running isRunning second different rival isRival
    · rw [Function.update_of_ne here] at isRunning
      by_cases there : second = id
      · subst there
        rw [Function.update_self] at isRival
        exact (compatible rival isRival first different.symm running
          isRunning).symm
      · rw [Function.update_of_ne there] at isRival
        exact explains.compatible first second different running isRunning
          rival isRival
  settled := settled
  fits other := by
    by_cases here : other = id
    · subst here
      rw [Function.update_self, Function.update_self]
      exact fits
    · rw [Function.update_of_ne here, Function.update_of_ne here]
      exact (explains.fits other).congr
        (elsewhere other fun same => here same.symm)

theorem Explains.settled_of_shared
    (explains : Explains memory process shadow phase) {id : Fin size}
    {reader : Process code} (running : process id = some reader)
    {cell : layout.Cell} (holds : reader.holding.Holds cell)
    (foreign : ¬reader.holding.Owns cell) : Settled process cell := by
  intro other rival isRival
  by_cases here : other = id
  · subst here
    cases running.symm.trans isRival
    exact foreign
  · exact (explains.compatible other id here rival isRival reader
      running).not_owns holds

/-! One lemma for each step of a process. -/

theorem Explains.start (explains : Explains memory process shadow phase)
    {id : Fin size} (idle : process id = none)
    (operation : code.Operation) :
    Explains memory
      (Function.update process id
        (some ⟨operation, code.body operation, .start⟩)) shadow
      (Function.update phase id (some (.invoked operation))) := by
  apply explains.move id
  · apply Fits.growing (code.keeps operation) rfl
    intro other agree
    rfl
  · exact fun _ _ _ _ _ _ => ⟨rfl, rfl⟩
  · intro running isRunning other different rival isRival lock mode holds
    cases isRunning
    cases holds
  · intro cell settled
    apply explains.settled cell
    apply settled_of_update settled
    intro running isRunning
    rw [idle] at isRunning
    cases isRunning

theorem Explains.acquire (explains : Explains memory process shadow phase)
    {id : Fin size} {operation : code.Operation} {lock : layout.Lock}
    {mode : Mode} {next : Unit → Section layout (code.Result operation)}
    {holding : Holding layout}
    (running : process id =
      some ⟨operation, .ask (.acquire lock mode) next, holding⟩)
    (granted : ∀ other, ∀ rival ∈ process other,
      ∀ taken ∈ rival.holding.held lock, mode.conflicts taken = false) :
    Explains memory
      (Function.update process id (some ⟨operation, next (),
        holding.after (.acquire lock mode)⟩)) shadow phase := by
  have fits := explains.fits id
  rw [running] at fits
  generalize stands : phase id = current at fits
  cases fits with
  | shrinking keeps shrinks completes =>
      have grows := keeps.permits.1
      rw [shrinks] at grows
      cases grows
  | growing keeps grows replays =>
      have fresh : holding.held lock = none := by
        by_contra held
        exact absurd (keeps.permits.2 lock held) (lt_irrefl _)
      -- the lock is granted only while nobody holds it exclusively
      have unowned : ∀ cell, layout.guard cell = lock →
          Settled process cell := by
        intro cell inside other rival isRival owns
        rw [Holding.Owns, inside] at owns
        have conflict := granted other rival isRival .exclusive owns
        cases mode <;> cases conflict
      have moved : Explains memory
          (Function.update process id (some ⟨operation, next (),
            holding.after (.acquire lock mode)⟩)) shadow
          (Function.update phase id (phase id)) := by
        apply explains.move id
        · rw [stands]
          apply Fits.growing (keeps.next ()) grows
          intro other agree
          have before := replays other fun cell holds =>
            agree cell (Holding.holds_acquire.mpr (.inr holds))
          rw [before]
          have overlays : holding.overlay memory other =
              (holding.after (.acquire lock mode)).overlay memory other := by
            funext cell
            by_cases inside : layout.guard cell = lock
            · have unheld : ¬holding.Holds cell := fun holds =>
                holds (inside ▸ fresh)
              have taken : (holding.after (.acquire lock mode)).Holds cell :=
                Holding.holds_acquire.mpr (.inl inside)
              rw [Holding.overlay, Holding.overlay, if_neg unheld,
                if_pos taken, agree cell taken]
              exact explains.settled cell (unowned cell inside)
            · simp [Holding.overlay, Holding.holds_acquire, inside]
          rw [← overlays]
          rfl
        · exact fun _ _ _ _ _ _ => ⟨rfl, rfl⟩
        · intro started isStarted other different rival isRival
          cases isStarted
          exact (explains.compatible id other different _ running rival
            isRival).acquire (granted other rival isRival)
        · intro cell settled
          apply explains.settled cell
          apply settled_of_update settled
          intro current isCurrent owns
          cases running.symm.trans isCurrent
          exact settled.own (owns.acquire fresh mode)
      rwa [Function.update_eq_self] at moved

theorem Explains.stay (explains : Explains memory process shadow phase)
    {id : Fin size} {operation : code.Operation}
    {rest rest' : Section layout (code.Result operation)}
    {holding : Holding layout} {memory' : Memory layout}
    (running : process id = some ⟨operation, rest, holding⟩)
    (fits : Fits memory' shadow (some ⟨operation, rest', holding⟩) (phase id))
    (foreign : ∀ cell, ¬holding.Owns cell → memory' cell = memory cell) :
    Explains memory'
      (Function.update process id (some ⟨operation, rest', holding⟩)) shadow
      phase := by
  have moved : Explains memory'
      (Function.update process id (some ⟨operation, rest', holding⟩)) shadow
      (Function.update phase id (phase id)) := by
    apply explains.move id fits
    · intro other different rival isRival cell holds
      have compatible := explains.compatible id other different _ running
        rival isRival
      exact ⟨foreign cell (compatible.not_owns holds), rfl⟩
    · intro started isStarted other different rival isRival
      cases isStarted
      exact explains.compatible id other different _ running rival isRival
    · intro cell settled
      rw [foreign cell settled.own]
      apply explains.settled cell
      apply settled_of_update settled
      intro current isCurrent
      cases running.symm.trans isCurrent
      exact settled.own
  rwa [Function.update_eq_self] at moved

theorem Explains.read (explains : Explains memory process shadow phase)
    {id : Fin size} {operation : code.Operation} {cell : layout.Cell}
    {next : layout.Value cell → Section layout (code.Result operation)}
    {holding : Holding layout}
    (running : process id = some ⟨operation, .ask (.read cell) next, holding⟩) :
    Explains memory
      (Function.update process id
        (some ⟨operation, next (memory cell), holding⟩)) shadow phase := by
  apply explains.stay running
  · have fits := explains.fits id
    rw [running] at fits
    generalize phase id = current at fits
    cases fits with
    | growing keeps grows replays =>
        apply Fits.growing (keeps.next (memory cell)) grows
        intro other agree
        have inside : holding.overlay memory other cell = memory cell :=
          if_pos keeps.permits
        rw [replays other agree, ← inside]
        rfl
    | shrinking keeps shrinks completes =>
        apply Fits.shrinking (keeps.next (memory cell)) shrinks
        intro other agree
        rw [← agree cell keeps.permits]
        exact completes other agree
  · exact fun _ _ => rfl

theorem Explains.write (explains : Explains memory process shadow phase)
    {id : Fin size} {operation : code.Operation} {cell : layout.Cell}
    {value : layout.Value cell}
    {next : Unit → Section layout (code.Result operation)}
    {holding : Holding layout}
    (running : process id =
      some ⟨operation, .ask (.write cell value) next, holding⟩) :
    Explains (Function.update memory cell value)
      (Function.update process id (some ⟨operation, next (), holding⟩))
      shadow phase := by
  have fits := explains.fits id
  rw [running] at fits
  generalize stands : phase id = current at fits
  have owns : holding.Owns cell := by
    cases fits with
    | growing keeps grows replays => exact keeps.permits
    | shrinking keeps shrinks completes => exact keeps.permits
  apply explains.stay running
  · rw [stands]
    cases fits with
    | growing keeps grows replays =>
        have later : Keeps (next ()) holding := keeps.next ()
        apply Fits.growing later grows
        intro other agree
        have overlays :
            Function.update (holding.overlay memory other) cell value =
              holding.overlay (Function.update memory cell value) other := by
          funext place
          by_cases here : place = cell
          · subst here
            rw [Function.update_self, Holding.overlay,
              if_pos (Holding.owns_holds owns), Function.update_self]
          · simp [Holding.overlay, here]
        rw [replays other agree, ← overlays]
        rfl
    | shrinking keeps shrinks completes =>
        apply Fits.shrinking (keeps.next ()) shrinks
        intro other agree
        -- before the write the cell still had its old value
        have before := completes (Function.update other cell (memory cell)) (by
          intro place holds
          by_cases here : place = cell
          · subst here
            exact Function.update_self ..
          · rw [Function.update_of_ne here, agree place holds,
              Function.update_of_ne here])
        have written : Function.update
            (Function.update other cell (memory cell)) cell value = other := by
          have given : other cell = value := by
            rw [agree cell (Holding.owns_holds owns), Function.update_self]
          rw [Function.update_idem, ← given, Function.update_eq_self]
        rw [← written]
        exact before
  · intro place foreign
    apply Function.update_of_ne
    rintro rfl
    exact foreign owns

theorem Explains.takeEffect
    (explains : Explains memory process shadow phase) {id : Fin size}
    {operation : code.Operation} {lock : layout.Lock}
    {next : Unit → Section layout (code.Result operation)}
    {holding : Holding layout}
    (running : process id =
      some ⟨operation, .ask (.release lock) next, holding⟩)
    (invoked : phase id = some (.invoked operation)) :
    Explains memory
      (Function.update process id
        (some ⟨operation, next (), holding.after (.release lock)⟩))
      (alone (code.body operation) shadow).1
      (Function.update phase id (some (.effected operation
        (alone (code.body operation) shadow).2))) := by
  have fits := explains.fits id
  rw [running, invoked] at fits
  cases fits with
  | growing keeps grows replays =>
  have later : Keeps (next ()) (holding.after (.release lock)) := keeps.next ()
  have through : alone (code.body operation) shadow =
      alone (next ()) (holding.overlay memory shadow) :=
    replays shadow fun _ _ => rfl
  have kept : ∀ cell, ¬(holding.after (.release lock)).Owns cell →
      (alone (code.body operation) shadow).1 cell =
        holding.overlay memory shadow cell := by
    intro cell foreign
    rw [through]
    exact alone_eq_of_not_owns later rfl _ foreign
  apply explains.move id
  · apply Fits.shrinking later rfl
    intro other agree
    rw [through]
    apply alone_congr later rfl
    intro cell holds
    rw [agree cell holds, Holding.overlay,
      if_pos (Holding.holds_of_release holds).1]
  · intro other different rival isRival cell holds
    have compatible := explains.compatible id other different _ running rival
      isRival
    have foreign : ¬holding.Owns cell := compatible.not_owns holds
    refine ⟨rfl, ?_⟩
    rw [kept cell fun owns => foreign (Holding.owns_of_release owns),
      Holding.overlay]
    split
    · next held =>
      exact (explains.settled cell
        (explains.settled_of_shared running held foreign)).symm
    · rfl
  · intro started isStarted other different rival isRival
    cases isStarted
    exact (explains.compatible id other different _ running rival
      isRival).release lock
  · intro cell settled
    rw [kept cell settled.own, Holding.overlay]
    split
    · rfl
    · next unheld =>
      apply explains.settled cell
      apply settled_of_update settled
      intro current isCurrent owns
      cases running.symm.trans isCurrent
      exact unheld (Holding.owns_holds owns)

theorem Explains.release (explains : Explains memory process shadow phase)
    {id : Fin size} {operation : code.Operation} {lock : layout.Lock}
    {next : Unit → Section layout (code.Result operation)}
    {holding : Holding layout} {result : code.Result operation}
    (running : process id =
      some ⟨operation, .ask (.release lock) next, holding⟩)
    (effected : phase id = some (.effected operation result)) :
    Explains memory
      (Function.update process id
        (some ⟨operation, next (), holding.after (.release lock)⟩))
      shadow phase := by
  have fits := explains.fits id
  rw [running, effected] at fits
  cases fits with
  | shrinking keeps shrinks completes =>
  have later : Keeps (next ()) (holding.after (.release lock)) := keeps.next ()
  have through := completes memory fun _ _ => rfl
  have moved : Explains memory
      (Function.update process id
        (some ⟨operation, next (), holding.after (.release lock)⟩))
      shadow (Function.update phase id (phase id)) := by
    apply explains.move id
    · rw [effected]
      apply Fits.shrinking later rfl
      intro other agree
      have same := alone_congr later rfl agree
      refine ⟨same.1.trans through.1, ?_⟩
      intro cell holds
      rw [same.2 cell holds]
      exact through.2 cell (Holding.holds_of_release holds).1
    · exact fun _ _ _ _ _ _ => ⟨rfl, rfl⟩
    · intro started isStarted other different rival isRival
      cases isStarted
      exact (explains.compatible id other different _ running rival
        isRival).release lock
    · intro cell settled
      by_cases held : holding.Holds cell
      · rw [← through.2 cell held]
        exact alone_eq_of_not_owns later rfl memory settled.own
      · apply explains.settled cell
        apply settled_of_update settled
        intro current isCurrent owns
        cases running.symm.trans isCurrent
        exact held (Holding.owns_holds owns)
  rwa [Function.update_eq_self] at moved

theorem Explains.finish (explains : Explains memory process shadow phase)
    {id : Fin size} {running : Process code}
    (isRunning : process id = some running)
    (empty : running.holding.Empty) :
    Explains memory (Function.update process id none) shadow
      (Function.update phase id none) := by
  apply explains.move id .idle
  · exact fun _ _ _ _ _ _ => ⟨rfl, rfl⟩
  · intro started isStarted
    cases isStarted
  · intro cell settled
    apply explains.settled cell
    apply settled_of_update settled
    intro current isCurrent owns
    cases isRunning.symm.trans isCurrent
    exact Holding.owns_holds owns (empty _)

end

end Simulation

/-! ## The steps of the specification -/

section Specification

variable {layout : Layout} [DecidableEq layout.Lock] {code : Code layout}
  {size : Nat} {State : Type}
  {effect : (operation : code.Operation) → State →
    State × code.Result operation}
  {atomic : Atomic code size State} {id : Fin size}
  {operation : code.Operation}

theorem atomic_start (idle : atomic.phase id = none) :
    (atomicMachine effect size).step atomic (.start id operation) =
      some { atomic with
        phase := Function.update atomic.phase id (some (.invoked operation))
        history := atomic.history ++ [.start id operation] } := by
  simp only [atomicMachine, idle]

theorem atomic_effect (invoked : atomic.phase id = some (.invoked operation)) :
    (atomicMachine effect size).step atomic (.effect id) =
      some { atomic with
        state := (effect operation atomic.state).1
        phase := Function.update atomic.phase id
          (some (.effected operation (effect operation atomic.state).2)) } := by
  simp only [atomicMachine, invoked]

theorem atomic_finish {result : code.Result operation}
    (effected : atomic.phase id = some (.effected operation result)) :
    (atomicMachine effect size).step atomic (.finish id) =
      some { atomic with
        phase := Function.update atomic.phase id none
        history := atomic.history ++ [.finish id operation result] } := by
  simp only [atomicMachine, effected]

end Specification

/-! ## Whole runs -/

section Runs

variable {layout : Layout} [DecidableEq layout.Lock]
  [DecidableEq layout.Cell] {code : Code layout} {size : Nat}

/-- Everything a step can do. -/
theorem step_cases {system next : System code size}
    {action : Action code size}
    (stepped : (machine code size).step system action = some next) :
    (∃ id operation, system.process id = none ∧
      next = ⟨system.memory,
        Function.update system.process id
          (some ⟨operation, code.body operation, .start⟩),
        system.history ++ [.start id operation]⟩) ∨
    (∃ id operation access rest holding,
      system.process id = some ⟨operation, .ask access rest, holding⟩ ∧
      system.Grants access ∧
      next = ⟨access.effect system.memory,
        Function.update system.process id
          (some ⟨operation, rest (access.answer system.memory),
            holding.after access⟩),
        system.history⟩) ∨
    (∃ id operation result holding,
      system.process id = some ⟨operation, .done result, holding⟩ ∧
      next = ⟨system.memory, Function.update system.process id none,
        system.history ++ [.finish id operation result]⟩) := by
  cases action with
  | start id operation =>
      simp only [machine] at stepped
      split at stepped
      · cases stepped
      · next idle =>
        cases stepped
        exact .inl ⟨id, operation, idle, rfl⟩
  | access id =>
      simp only [machine] at stepped
      split at stepped
      · next operation access rest holding running =>
        split at stepped
        · next granted =>
          cases stepped
          exact .inr (.inl ⟨id, operation, access, rest, holding, running,
            granted, rfl⟩)
        · cases stepped
      · cases stepped
  | finish id =>
      simp only [machine] at stepped
      split at stepped
      · next operation result holding running =>
        cases stepped
        exact .inr (.inr ⟨id, operation, result, holding, running, rfl⟩)
      · cases stepped

variable {State : Type} {view : Memory layout → State}
  {effect : (operation : code.Operation) → State →
    State × code.Result operation}

structure Refines (view : Memory layout → State) (system : System code size)
    (atomic : Atomic code size State) : Prop where
  history : atomic.history = system.history
  explains : ∃ shadow, atomic.state = view shadow ∧
    Explains system.memory system.process shadow atomic.phase

theorem refines_init (memory : Memory layout) :
    Refines view (System.init memory : System code size)
      (Atomic.init (view memory)) where
  history := rfl
  explains := by
    refine ⟨memory, rfl, ?_, ?_, ?_⟩
    · intro id other different running isRunning
      cases isRunning
    · exact fun _ _ => rfl
    · exact fun id => .idle

variable {atomic : Atomic code size State}

theorem Refines.step {system next : System code size}
    {action : Action code size}
    (agrees : ∀ operation memory, effect operation (view memory) =
      (view (alone (code.body operation) memory).1,
        (alone (code.body operation) memory).2))
    (refines : Refines view system atomic)
    (stepped : (machine code size).step system action = some next) :
    ∃ matching after,
      (atomicMachine effect size).run atomic matching = some after ∧
        Refines view next after := by
  rcases refines.explains with ⟨shadow, viewed, explains⟩
  rcases step_cases stepped with
    ⟨id, operation, idle, rfl⟩ |
    ⟨id, operation, access, rest, holding, running, granted, rfl⟩ |
    ⟨id, operation, result, holding, running, rfl⟩
  · have fits := explains.fits id
    rw [idle] at fits
    generalize stands : atomic.phase id = current at fits
    cases fits with
    | idle =>
        refine ⟨[.start id operation], _,
          Machine.run_single (atomic_start stands), ?_, shadow, viewed, ?_⟩
        · rw [refines.history]
        · exact explains.start idle operation
  · cases access with
    | acquire lock mode =>
        exact ⟨[], atomic, rfl, refines.history, shadow, viewed,
          explains.acquire running granted⟩
    | read cell =>
        exact ⟨[], atomic, rfl, refines.history, shadow, viewed,
          explains.read running⟩
    | write cell value =>
        exact ⟨[], atomic, rfl, refines.history, shadow, viewed,
          explains.write running⟩
    | release lock =>
        have fits := explains.fits id
        rw [running] at fits
        generalize stands : atomic.phase id = current at fits
        cases fits with
        | growing keeps grows replays =>
            refine ⟨[.effect id], _,
              Machine.run_single (atomic_effect stands), refines.history,
              (alone (code.body operation) shadow).1, ?_, ?_⟩
            · rw [viewed, agrees]
            · rw [viewed, agrees]
              exact explains.takeEffect running stands
        | shrinking keeps shrinks completes =>
            exact ⟨[], atomic, rfl, refines.history, shadow, viewed,
              explains.release running stands⟩
  · have fits := explains.fits id
    rw [running] at fits
    generalize stands : atomic.phase id = current at fits
    cases fits with
    | growing keeps grows replays =>
        -- a section without locks takes its effect at its end
        have nothing : alone (code.body operation) shadow =
            (shadow, result) := by
          rw [replays shadow fun _ _ => rfl, Holding.overlay_empty keeps.empty]
          rfl
        have effected :
            (atomicMachine effect size).step atomic (.effect id) = _ :=
          atomic_effect stands
        rw [viewed, agrees, nothing] at effected
        refine ⟨[.effect id, .finish id], _,
          Machine.run_cons_eq_some.mpr ⟨_, effected,
            Machine.run_single (atomic_finish (Function.update_self ..))⟩,
          ?_, shadow, rfl, ?_⟩
        · rw [refines.history]
        · rw [Function.update_idem]
          exact explains.finish running keeps.empty
    | shrinking keeps shrinks completes =>
        have same := (completes system.memory fun _ _ => rfl).1
        cases same
        refine ⟨[.finish id], _, Machine.run_single (atomic_finish stands),
          ?_, shadow, viewed, explains.finish running keeps.empty⟩
        rw [refines.history]
        rfl

theorem Refines.state_of_idle {system : System code size}
    (refines : Refines view system atomic) (idle : system.Idle) :
    atomic.state = view system.memory := by
  rcases refines.explains with ⟨shadow, viewed, explains⟩
  rw [viewed]
  congr 1
  funext cell
  apply explains.settled cell
  intro id running isRunning
  rw [idle id] at isRunning
  cases isRunning

theorem run_atomic
    (agrees : ∀ operation memory, effect operation (view memory) =
      (view (alone (code.body operation) memory).1,
        (alone (code.body operation) memory).2))
    {memory : Memory layout} {actions : List (Action code size)}
    {system : System code size}
    (completed : (machine code size).run (.init memory) actions =
      some system) :
    ∃ matching atomic,
      (atomicMachine effect size).run (.init (view memory)) matching =
        some atomic ∧
      atomic.history = system.history ∧
      (system.Idle → atomic.state = view system.memory) := by
  rcases Machine.run_simulated (Refines.step agrees) (refines_init memory)
    completed with ⟨matching, atomic, reached, refines⟩
  exact ⟨matching, atomic, reached, refines.history,
    refines.state_of_idle⟩

end Runs

end PasswordProfile.LockedSections
