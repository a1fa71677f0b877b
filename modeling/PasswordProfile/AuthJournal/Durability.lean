import PasswordProfile.AuthJournal.File
import PasswordProfile.Foundation.CrashState
import PasswordProfile.Foundation.Execution

/-! # What a crash finds of the journal

File data is on disk after `sync_data`; a directory entry that was created,
renamed or removed is on disk after the next `sync_all` of the data directory.
Every step of `append`, `rotate` and `remove_processing` may fail, and every
write is whole or does not happen.
-/

namespace PasswordProfile.AuthJournal.Durability

open AuthEvent Execution CrashState

abbrev Inode := Nat

structure Directory where
  active : Option Inode
  processing : Option Inode
  deriving DecidableEq, Repr

namespace Directory

def empty : Directory := ⟨none, none⟩

def Names (directory : Directory) (inode : Inode) : Prop :=
  directory.active = some inode ∨ directory.processing = some inode

instance (directory : Directory) (inode : Inode) :
    Decidable (directory.Names inode) :=
  inferInstanceAs (Decidable (_ ∨ _))

/-! Each operation acts on a directory in which its subject is where it was
when the operation was issued; on another directory, that of a crash which lost
an earlier operation, there is nothing for it to act on. -/

def create (inode : Inode) (directory : Directory) : Directory :=
  if directory.active = none then { directory with active := some inode }
  else directory

/-- `rename` replaces what the target name led to. -/
def rename (inode : Inode) (directory : Directory) : Directory :=
  if directory.active = some inode then ⟨none, some inode⟩ else directory

def unlink (inode : Inode) (directory : Directory) : Directory :=
  if directory.processing = some inode then
    { directory with processing := none }
  else directory

theorem names_create {directory : Directory} {inode : Inode}
    (named : directory.Names inode) (created : Inode) :
    (directory.create created).Names inode := by
  unfold create
  split
  · next absent =>
      rcases named with active | processing
      · rw [absent] at active
        cases active
      · exact .inr processing
  · exact named

theorem names_rename {directory : Directory} {inode renamed : Inode}
    (named : directory.Names inode)
    (kept : directory.processing = some inode → inode = renamed) :
    (directory.rename renamed).Names inode := by
  unfold rename
  split
  · next present =>
      rcases named with active | processing
      · rw [active] at present
        rw [Option.some.inj present]
        exact .inr rfl
      · rw [kept processing]
        exact .inr rfl
  · exact named

theorem names_unlink {directory : Directory} {inode unlinked : Inode}
    (named : directory.Names inode) (other : inode ≠ unlinked) :
    (directory.unlink unlinked).Names inode := by
  unfold unlink
  split
  · next present =>
      rcases named with active | processing
      · exact .inl active
      · rw [processing] at present
        exact absurd (Option.some.inj present) other
  · exact named

end Directory

/-- The file system, with the appends that returned `Ok` and the batches that
`remove_processing` took away. -/
structure World where
  directory : Volatile Directory
  /-- What was written to a file. -/
  written : Inode → List SharedAuthEvent
  /-- The part of it that is on disk. -/
  synced : Inode → List SharedAuthEvent
  nextInode : Inode
  acknowledged : List (SharedAuthEvent × Inode)
  removed : List Inode

def initial : World where
  directory := settled .empty
  written := fun _ => []
  synced := fun _ => []
  nextInode := 0
  acknowledged := []
  removed := []

/-- The step of `append` that fails. -/
inductive AppendStep
  | «open»
  | metadata
  | write
  | syncData
  | directorySync
  deriving DecidableEq, Repr

/-- `OpenOptions::create` on the active path. -/
def openActive (world : World) : World × Inode :=
  match world.directory.current.active with
  | some inode => (world, inode)
  | none =>
      ({ world with
          directory := world.directory.perform
            (Directory.create world.nextInode)
          nextInode := world.nextInode + 1 },
        world.nextInode)

def syncDirectory (world : World) : World :=
  { world with directory := world.directory.sync }

/-- `statFails` makes `exists` answer no. -/
def append (world : World) (event : SharedAuthEvent) (statFails : Bool)
    (fails : Option AppendStep) : World × Bool :=
  let newFile := statFails || world.directory.current.active.isNone
  if fails = some .open then (world, false)
  else
    let (world, inode) := openActive world
    if fails = some .metadata ∨ fails = some .write then (world, false)
    else
      let world := { world with
        written := Function.update world.written inode
          (world.written inode ++ [event]) }
      if fails = some .syncData then (world, false)
      else
        let world := { world with
          synced := Function.update world.synced inode
            (world.written inode) }
        if newFile ∧ fails = some .directorySync then (world, false)
        else
          let world := if newFile then syncDirectory world else world
          ({ world with
              acknowledged := world.acknowledged ++ [(event, inode)] },
            true)

inductive RotateStep
  | metadata
  | rename
  | directorySync
  deriving DecidableEq, Repr

def rotate (world : World) (statFails : Bool) (fails : Option RotateStep) :
    World :=
  if statFails = false ∧ world.directory.current.processing.isSome then world
  else
    match world.directory.current.active with
    | none => world
    | some inode =>
        if fails = some .metadata ∨ (world.written inode).length = 0 ∨
            fails = some .rename then world
        else
          let world := { world with
            directory := world.directory.perform (Directory.rename inode) }
          if fails = some .directorySync then world else syncDirectory world

inductive RemoveStep
  | removeFile
  | directorySync
  deriving DecidableEq, Repr

def removeProcessing (world : World) (fails : Option RemoveStep) : World :=
  match world.directory.current.processing with
  | none => world
  | some inode =>
      if fails = some .removeFile then world
      else
        let world := { world with
          directory := world.directory.perform (Directory.unlink inode)
          removed := world.removed ++ [inode] }
        if fails = some .directorySync then world else syncDirectory world

inductive Action
  | append (event : SharedAuthEvent) (statFails : Bool)
      (fails : Option AppendStep)
  | rotate (statFails : Bool) (fails : Option RotateStep)
  | removeProcessing (fails : Option RemoveStep)
  deriving DecidableEq

def perform (world : World) : Action → World
  | .append event statFails fails => (append world event statFails fails).1
  | .rotate statFails fails => rotate world statFails fails
  | .removeProcessing fails => removeProcessing world fails

def machine : Machine World Action where
  step world action := some (perform world action)

/-! ## The same files as bytes -/

/-- The journal's files as the reader sees them in memory. -/
def view (sipHasher : SipHasher13) (world : World) : Files :=
  ⟨world.directory.current.active.map fun inode =>
      recordBytes sipHasher (world.written inode),
    world.directory.current.processing.map fun inode =>
      recordBytes sipHasher (world.written inode)⟩

structure Placed (world : World) : Prop where
  untouched : ∀ inode, world.nextInode ≤ inode → world.written inode = []
  below : ∀ inode, world.directory.current.Names inode →
    inode < world.nextInode
  apart : ∀ inode, world.directory.current.active = some inode →
    world.directory.current.processing ≠ some inode

/-- The step of `append` that fails, seen from the bytes. -/
def AppendStep.fault : AppendStep → AppendFault
  | .open => .openFailed
  | .metadata => .permissions
  | .write => .writeFailed 0
  | .syncData => .syncFailed
  | .directorySync => .directorySyncFailed

section

variable {world : World}

theorem openActive_active (world : World) :
    (openActive world).1.directory.current.active =
      some (openActive world).2 := by
  unfold openActive
  split
  · next inode present => exact present
  · next absent => simp [Directory.create, absent]

theorem Placed.openActive (placed : Placed world) :
    Placed (openActive world).1 := by
  unfold Durability.openActive
  split
  · exact placed
  · next absent =>
      refine ⟨?_, ?_, ?_⟩
      · intro inode fresh
        exact placed.untouched inode (Nat.le_of_succ_le fresh)
      · intro inode named
        simp only [perform_current, Directory.create, absent, if_true,
          Directory.Names] at named
        rcases named with created | processing
        · cases created
          exact Nat.lt_succ_self _
        · exact Nat.lt_succ_of_lt (placed.below inode (.inr processing))
      · intro inode active processing
        simp only [perform_current, Directory.create, absent,
          if_true] at active processing
        cases active
        exact Nat.lt_irrefl _ (placed.below _ (.inr processing))

theorem Placed.write (placed : Placed world) {inode : Inode}
    (active : world.directory.current.active = some inode)
    (contents : List SharedAuthEvent) :
    Placed { world with
      written := Function.update world.written inode contents } where
  untouched := by
    intro other fresh
    have different : other ≠ inode := by
      intro same
      have old := placed.below inode (.inl active)
      rw [same] at fresh
      exact Nat.lt_irrefl _ (Nat.lt_of_lt_of_le old fresh)
    simp only [Function.update_of_ne different]
    exact placed.untouched other fresh
  below := placed.below
  apart := placed.apart

theorem Placed.append (placed : Placed world) (event : SharedAuthEvent)
    (statFails : Bool) (fails : Option AppendStep) :
    Placed (append world event statFails fails).1 := by
  have opened := placed.openActive
  have written := opened.write (openActive_active world)
    ((Durability.openActive world).1.written
      (Durability.openActive world).2 ++ [event])
  have kept : ∀ {other : World}, other.written =
      Function.update (Durability.openActive world).1.written
        (Durability.openActive world).2
        ((Durability.openActive world).1.written
          (Durability.openActive world).2 ++ [event]) →
      other.nextInode = (Durability.openActive world).1.nextInode →
      other.directory.current =
        (Durability.openActive world).1.directory.current →
      Placed other := by
    intro other sameWritten sameNext sameDirectory
    refine ⟨?_, ?_, ?_⟩
    · rw [sameWritten, sameNext]
      exact written.untouched
    · rw [sameNext, sameDirectory]
      exact written.below
    · rw [sameDirectory]
      exact written.apart
  unfold Durability.append
  dsimp only
  split
  · exact placed
  · split
    · exact opened
    · split
      · exact written
      · split
        · exact kept rfl rfl rfl
        · split
          · exact kept rfl rfl rfl
          · exact kept rfl rfl rfl

theorem Placed.rotate (placed : Placed world) (statFails : Bool)
    (fails : Option RotateStep) : Placed (rotate world statFails fails) := by
  unfold Durability.rotate
  split
  · exact placed
  · split
    · exact placed
    · next inode active =>
        split
        · exact placed
        · have renamed : Placed { world with
              directory :=
                world.directory.perform (Directory.rename inode) } := by
            refine ⟨placed.untouched, ?_, ?_⟩
            · intro other named
              simp only [perform_current, Directory.rename, active, if_true,
                Directory.Names] at named
              rcases named with absurd | same
              · cases absurd
              · cases same
                exact placed.below _ (.inl active)
            · intro other inActive
              simp only [perform_current, Directory.rename, active,
                if_true] at inActive
              cases inActive
          dsimp only
          split
          · exact renamed
          · exact ⟨renamed.untouched, renamed.below, renamed.apart⟩

theorem Placed.removeProcessing (placed : Placed world)
    (fails : Option RemoveStep) : Placed (removeProcessing world fails) := by
  unfold Durability.removeProcessing
  split
  · exact placed
  · next inode present =>
      split
      · exact placed
      · have unlinked : Placed { world with
            directory := world.directory.perform (Directory.unlink inode)
            removed := world.removed ++ [inode] } := by
          refine ⟨placed.untouched, ?_, ?_⟩
          · intro other named
            simp only [perform_current, Directory.unlink, present, if_true,
              Directory.Names] at named
            rcases named with active | absurd
            · exact placed.below other (.inl active)
            · cases absurd
          · intro other _
            simp only [perform_current, Directory.unlink, present, if_true]
            exact fun absurd => by cases absurd
        dsimp only
        split
        · exact unlinked
        · exact ⟨unlinked.untouched, unlinked.below, unlinked.apart⟩

theorem placed_initial : Placed initial where
  untouched := fun _ _ => rfl
  below := by
    intro inode named
    rcases named with active | processing
    · cases active
    · cases processing
  apart := by
    intro inode active
    cases active

theorem run_placed {actions : List Action} {final : World}
    (completed : machine.run initial actions = some final) : Placed final := by
  apply Machine.run_invariant _ placed_initial completed
  intro world action next placed stepped
  cases stepped
  cases action with
  | append event statFails fails => exact placed.append event statFails fails
  | rotate statFails fails => exact placed.rotate statFails fails
  | removeProcessing fails => exact placed.removeProcessing fails

theorem view_openActive (sipHasher : SipHasher13) (placed : Placed world) :
    view sipHasher (openActive world).1 =
      { view sipHasher world with
        active := some ((view sipHasher world).active.getD []) } := by
  unfold Durability.openActive
  split
  · next inode active => simp [view, active]
  · next absent =>
      simp [view, absent, Directory.create,
        placed.untouched world.nextInode (Nat.le_refl _)]

theorem view_write (sipHasher : SipHasher13) (placed : Placed world)
    {inode : Inode} (active : world.directory.current.active = some inode)
    (event : SharedAuthEvent) :
    view sipHasher { world with
        written := Function.update world.written inode
          (world.written inode ++ [event]) } =
      { view sipHasher world with
        active := some ((view sipHasher world).active.getD [] ++
          (encode sipHasher event).bytes) } := by
  have other := placed.apart inode active
  simp only [view, active, Option.map_some, Function.update_self,
    Option.getD_some, Files.mk.injEq, Option.some.injEq]
  constructor
  · rw [recordBytes_append, recordBytes_cons, recordBytes_nil,
      List.append_nil]
  · cases processing : world.directory.current.processing with
    | none => rfl
    | some file =>
        rw [processing] at other
        have different : file ≠ inode := fun same => other (by rw [same])
        simp [Function.update_of_ne different]

theorem view_append (sipHasher : SipHasher13) (placed : Placed world)
    (event : SharedAuthEvent) (fails : Option AppendStep) :
    view sipHasher (append world event false fails).1 =
      (AuthJournal.append sipHasher (view sipHasher world) event
        (fails.map AppendStep.fault)).1 := by
  have opened := view_openActive sipHasher placed
  have written := view_write sipHasher placed.openActive
    (openActive_active world) event
  rw [opened] at written
  cases fails with
  | none =>
      simp only [append, reduceCtorEq, if_false, or_self, and_false]
      split
      · exact written
      · exact written
  | some step =>
      cases step with
      | «open» => rfl
      | metadata => exact opened
      | write =>
          rw [show (some AppendStep.write).map AppendStep.fault =
            some (.writeFailed 0) from rfl]
          simp only [AuthJournal.append, Fin.val_zero, List.take_zero,
            List.append_nil]
          exact opened
      | syncData => exact written
      | directorySync =>
          simp only [append, Option.some.injEq, reduceCtorEq, if_false,
            or_self]
          split
          · exact written
          · split
            · exact written
            · exact written

theorem view_rotate (sipHasher : SipHasher13) :
    view sipHasher (rotate world false none) =
      AuthJournal.rotate (view sipHasher world) := by
  cases processing : world.directory.current.processing with
  | some file => simp [rotate, AuthJournal.rotate, view, processing]
  | none =>
      cases active : world.directory.current.active with
      | none => simp [rotate, AuthJournal.rotate, view, processing, active]
      | some inode =>
          by_cases empty : (world.written inode).length = 0
          · have nothing := List.length_eq_zero_iff.mp empty
            simp [rotate, AuthJournal.rotate, view, processing, active,
              nothing]
          · have some : 0 < (recordBytes sipHasher
                (world.written inode)).length := by
              rw [recordBytes_length]
              exact Nat.mul_pos (by decide) (Nat.pos_of_ne_zero empty)
            simp only [rotate, AuthJournal.rotate, view, processing, active,
              Option.isSome_none, Bool.false_eq_true, and_false, if_false,
              empty, reduceCtorEq, or_self, Option.map_some, Option.map_none,
              gt_iff_lt, if_pos some]
            simp [syncDirectory, Directory.rename, active]

end

/-! ## Crashes -/

/-- The files as they are found after a crash: some directory that the disk may
hold, and of each file at least what was synced. -/
structure Crash (world : World) where
  directory : Directory
  possible : directory ∈ world.directory.possible
  contents : Inode → List SharedAuthEvent
  kept : ∀ inode, world.synced inode <+: contents inode
  written : ∀ inode, contents inode <+: world.written inode

namespace Crash

variable {world : World}

def active (crash : Crash world) : List SharedAuthEvent :=
  (crash.directory.active.map crash.contents).getD []

def processing (crash : Crash world) : List SharedAuthEvent :=
  (crash.directory.processing.map crash.contents).getD []

end Crash

/-- Every event whose append returned `Ok`, and whose batch was not removed, is
found in one of the two files. -/
def Survives (world : World) : Prop :=
  ∀ event inode, (event, inode) ∈ world.acknowledged → inode ∉ world.removed →
    ∀ crash : Crash world, event ∈ crash.active ∨ event ∈ crash.processing

/-- The step does not acknowledge an event in a file whose directory entry a
crash can still take away, and does not rename over a batch it failed to see. -/
def Sound (world : World) : Action → Prop
  | .append _ statFails fails =>
      ∀ inode, world.directory.current.active = some inode →
        statFails = false → fails = none ∨ fails = some .directorySync →
        ∀ directory ∈ world.directory.possible, directory.Names inode
  | .rotate statFails fails =>
      ∀ inode, world.directory.current.active = some inode →
        (world.written inode).length ≠ 0 → statFails = true →
        fails = none ∨ fails = some .directorySync →
        world.directory.current.processing = none
  | .removeProcessing _ => True

/-! ## What the steps keep -/

structure Kept (world : World) : Prop where
  named : ∀ event inode, (event, inode) ∈ world.acknowledged →
    inode ∉ world.removed →
    ∀ directory ∈ world.directory.possible, directory.Names inode
  stored : ∀ event inode, (event, inode) ∈ world.acknowledged →
    event ∈ world.synced inode
  grown : ∀ inode, world.synced inode <+: world.written inode

theorem kept_initial : Kept initial where
  named := by
    intro event inode member
    cases member
  stored := by
    intro event inode member
    cases member
  grown := fun _ => List.nil_prefix

section

variable {world : World}

def Kept.crash (kept : Kept world) (directory : Directory)
    (possible : directory ∈ world.directory.possible) : Crash world where
  directory := directory
  possible := possible
  contents := world.synced
  kept := fun _ => List.prefix_refl _
  written := kept.grown

theorem Kept.survives (kept : Kept world) : Survives world := by
  intro event inode acknowledged unremoved crash
  have stored : event ∈ crash.contents inode :=
    (crash.kept inode).subset (kept.stored event inode acknowledged)
  rcases kept.named event inode acknowledged unremoved crash.directory
      crash.possible with active | processing
  · left
    rw [Crash.active, active]
    exact stored
  · right
    rw [Crash.processing, processing]
    exact stored

theorem Kept.openActive (kept : Kept world) : Kept (openActive world).1 := by
  unfold Durability.openActive
  split
  · exact kept
  · refine ⟨?_, kept.stored, kept.grown⟩
    intro event inode acknowledged unremoved
    apply forall_perform (kept.named event inode acknowledged unremoved)
    intro directory _ named
    exact Directory.names_create named _

theorem Kept.write (kept : Kept world) (inode : Inode)
    (event : SharedAuthEvent) :
    Kept { world with
      written := Function.update world.written inode
        (world.written inode ++ [event]) } where
  named := kept.named
  stored := kept.stored
  grown := by
    intro other
    by_cases same : other = inode
    · rw [same]
      simp only [Function.update_self]
      exact (kept.grown inode).trans (List.prefix_append _ _)
    · simp only [Function.update_of_ne same]
      exact kept.grown other

theorem Kept.syncData (kept : Kept world) (inode : Inode) :
    Kept { world with
      synced := Function.update world.synced inode
        (world.written inode) } where
  named := kept.named
  stored := by
    intro event other acknowledged
    have stored := kept.stored event other acknowledged
    by_cases same : other = inode
    · rw [same] at stored ⊢
      simp only [Function.update_self]
      exact (kept.grown inode).subset stored
    · simp only [Function.update_of_ne same]
      exact stored
  grown := by
    intro other
    by_cases same : other = inode
    · rw [same]
      simp only [Function.update_self]
      exact List.prefix_refl _
    · simp only [Function.update_of_ne same]
      exact kept.grown other

theorem Kept.syncDirectory (kept : Kept world) :
    Kept (syncDirectory world) where
  named := by
    intro event inode acknowledged unremoved
    exact forall_sync (kept.named event inode acknowledged unremoved)
  stored := kept.stored
  grown := kept.grown

theorem Kept.acknowledge (kept : Kept world) {event : SharedAuthEvent}
    {inode : Inode}
    (named : ∀ directory ∈ world.directory.possible, directory.Names inode)
    (stored : event ∈ world.synced inode) :
    Kept { world with
      acknowledged := world.acknowledged ++ [(event, inode)] } where
  named := by
    intro other file member unremoved
    rcases List.mem_append.mp member with earlier | last
    · exact kept.named other file earlier unremoved
    · cases List.mem_singleton.mp last
      exact named
  stored := by
    intro other file member
    rcases List.mem_append.mp member with earlier | last
    · exact kept.stored other file earlier
    · cases List.mem_singleton.mp last
      exact stored
  grown := kept.grown

theorem Kept.append (kept : Kept world) {event : SharedAuthEvent}
    {statFails : Bool} {fails : Option AppendStep}
    (sound : Sound world (.append event statFails fails)) :
    Kept (append world event statFails fails).1 := by
  unfold Durability.append
  dsimp only
  split
  · exact kept
  · next opens =>
    have opened := kept.openActive
    split
    · exact opened
    · next noMetadataOrWrite =>
        have written := opened.write (Durability.openActive world).2 event
        split
        · exact written
        · next noSyncData =>
            have synced := written.syncData (Durability.openActive world).2
            split
            · exact synced
            · next noDirectorySync =>
                split
                · apply synced.syncDirectory.acknowledge
                  · intro directory member
                    rw [mem_sync.mp member]
                    exact .inl (openActive_active world)
                  · simp [Durability.syncDirectory]
                · next existing =>
                    rw [Bool.not_eq_true, Bool.or_eq_false_iff,
                      Option.isNone_eq_false_iff,
                      Option.isSome_iff_exists] at existing
                    rcases existing.2 with ⟨inode, active⟩
                    have same : Durability.openActive world =
                        (world, inode) := by
                      rw [Durability.openActive, active]
                    apply synced.acknowledge
                    · rw [same]
                      apply sound inode active existing.1
                      rcases fails with _ | step
                      · exact .inl rfl
                      · cases step with
                        | «open» => exact absurd rfl opens
                        | metadata => exact absurd (.inl rfl) noMetadataOrWrite
                        | write => exact absurd (.inr rfl) noMetadataOrWrite
                        | syncData => exact absurd rfl noSyncData
                        | directorySync => exact .inr rfl
                    · simp

theorem Kept.rename (kept : Kept world) {inode : Inode}
    (active : world.directory.current.active = some inode)
    (free : world.directory.current.processing = none) :
    Kept { world with
      directory := world.directory.perform (Directory.rename inode) } := by
  refine ⟨?_, kept.stored, kept.grown⟩
  intro event file acknowledged unremoved
  have named := kept.named event file acknowledged unremoved
  apply forall_perform named
  intro directory _ inDirectory
  apply Directory.names_rename inDirectory
  intro _
  rcases named world.directory.current world.directory.reached with
    inActive | inProcessing
  · rw [active] at inActive
    exact (Option.some.inj inActive).symm
  · rw [free] at inProcessing
    cases inProcessing

theorem Kept.rotate (kept : Kept world) {statFails : Bool}
    {fails : Option RotateStep}
    (sound : Sound world (.rotate statFails fails)) :
    Kept (rotate world statFails fails) := by
  unfold Durability.rotate
  split
  · exact kept
  · next unseen =>
      split
      · exact kept
      · next inode active =>
          split
          · exact kept
          · next proceeds =>
              rw [not_or, not_or] at proceeds
              have renames : fails = none ∨ fails = some .directorySync := by
                rcases fails with _ | step
                · exact .inl rfl
                · cases step with
                  | metadata => exact absurd rfl proceeds.1
                  | rename => exact absurd rfl proceeds.2.2
                  | directorySync => exact .inr rfl
              have free : world.directory.current.processing = none := by
                cases statFails with
                | true => exact sound inode active proceeds.2.1 rfl renames
                | false => simpa using unseen
              have renamed := kept.rename active free
              dsimp only
              split
              · exact renamed
              · exact renamed.syncDirectory

theorem Kept.removeProcessing (kept : Kept world)
    (fails : Option RemoveStep) : Kept (removeProcessing world fails) := by
  unfold Durability.removeProcessing
  split
  · exact kept
  · next inode present =>
      split
      · exact kept
      · have unlinked : Kept { world with
            directory := world.directory.perform (Directory.unlink inode)
            removed := world.removed ++ [inode] } := by
          refine ⟨?_, kept.stored, kept.grown⟩
          intro event file acknowledged unremoved
          rw [List.mem_append, List.mem_singleton, not_or] at unremoved
          apply forall_perform
            (kept.named event file acknowledged unremoved.1)
          intro directory _ named
          exact Directory.names_unlink named unremoved.2
        dsimp only
        split
        · exact unlinked
        · exact unlinked.syncDirectory

theorem Kept.perform (kept : Kept world) {action : Action}
    (sound : Sound world action) : Kept (perform world action) := by
  cases action with
  | append event statFails fails => exact kept.append sound
  | rotate statFails fails => exact kept.rotate sound
  | removeProcessing fails => exact kept.removeProcessing fails

end

/-- In a run of sound steps every acknowledged event survives a crash at the
end of it, and so at any point. -/
theorem acknowledged_survives {actions : List Action} {final : World}
    (sound : machine.EveryStep Sound initial actions)
    (completed : machine.run initial actions = some final) :
    Survives final := by
  have kept : Kept final := Machine.run_invariant_of_everyStep
    (fun kept sound stepped => Option.some.inj stepped ▸ kept.perform sound)
    kept_initial sound completed
  exact kept.survives

def failureOf (byte : UInt8) : SharedAuthEvent where
  eventId := Vector.replicate 16 byte
  username := encodeUsername "alice"
  timestamp := 0
  seq := 0
  kind := eventKindFailure
  generation := 0
  flags := 0

/-- The append that creates the file fails at its directory sync, so the next
one finds the file there and has nothing to sync but data. -/
def entryUnsynced : List Action :=
  [.append (failureOf 1) false (some .directorySync),
    .append (failureOf 2) false none]

theorem entryUnsynced_lost :
    ¬∀ final, machine.run initial entryUnsynced = some final →
      Survives final := by
  intro always
  have survives := always _ rfl
  have lost := survives (failureOf 2) 0 (List.mem_singleton_self _)
    (List.not_mem_nil)
    { directory := .empty
      possible := List.mem_cons_self
      contents := fun inode =>
        if inode = 0 then [failureOf 1, failureOf 2] else []
      kept := by
        intro inode
        by_cases first : inode = 0
        · rw [first]
          exact List.prefix_refl _
        · rw [if_neg first]
          simp [perform, append, openActive, initial, settled, Directory.empty,
            Directory.create, first]
      written := by
        intro inode
        by_cases first : inode = 0
        · rw [first]
          exact List.prefix_refl _
        · rw [if_neg first]
          exact List.nil_prefix }
  rcases lost with inActive | inProcessing
  · cases inActive
  · cases inProcessing

/-- Two appends, the first of which creates the file and syncs its entry. -/
theorem entrySynced_survives :
    Survives (perform (perform initial (.append (failureOf 1) false none))
      (.append (failureOf 2) false none)) := by
  have sound : machine.EveryStep Sound initial
      [.append (failureOf 1) false none,
        .append (failureOf 2) false none] := by
    constructor
    · intro inode active
      cases active
    · intro next stepped
      cases stepped
      refine ⟨?_, fun _ _ => trivial⟩
      intro inode active _ _ directory member
      rw [List.mem_singleton.mp member]
      exact .inl active
  exact acknowledged_survives sound rfl

end PasswordProfile.AuthJournal.Durability
