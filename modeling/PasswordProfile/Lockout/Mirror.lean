import PasswordProfile.Lockout.Coverage
import PasswordProfile.Lockout.LastDecision

/-! # The lock cache tells nothing that was not committed

Whatever is in the cache was once in the table. It still is there unless a
commit came so late that its own lockout had ended: such a lockout is not
applied, and what the cache held before stays.
-/

namespace PasswordProfile.Lockout

open Execution SlotTable
open PendingCacheOp (CacheDecision)

/-! ## Where a cached lockout comes from -/

namespace LockCache

variable {cache : LockCache} {username key : EncodedUsername}
  {expiresAt now found : TimestampTz}

theorem held_of_free (free : username.isFree = true) :
    cache.held username = none := by
  rw [held, Option.map_eq_none_iff, contents_eq_none_iff]
  intro slot owned
  have used := LockEntry.owner_eq_some_iff.mp owned
  rw [← used.2, used.1] at free
  cases free

/-- After `set` the cache holds the new lockout and what it held before. -/
theorem WellFormed.held_set_cases (wellFormed : cache.WellFormed)
    (holds : (cache.set username expiresAt now).1.held key = some found) :
    (key ≠ username ∧ cache.held key = some found) ∨
      (key = username ∧ expiresAt = found) ∨
      (key = username ∧ cache.held key = some found ∧ expiresAt ≤ now) := by
  by_cases same : key = username
  · subst same
    by_cases expired : expiresAt ≤ now
    · rw [set_expired cache key expired] at holds
      exact .inr (.inr ⟨rfl, holds, expired⟩)
    · have future := not_le.mp expired
      have used : key.isFree = false := by
        by_contra free
        rw [held_of_free (by simpa using free)] at holds
        cases holds
      by_cases refuses : cache.Refuses key expiresAt now
      · -- a refused user had no entry
        rw [set_of_refuses refuses] at holds
        rcases Option.map_eq_some_iff.mp holds with ⟨entry, present, _⟩
        have missing := contents_eq_none_iff.mpr fun slot =>
          (refuses.2.2 slot).1
        rw [show contents LockEntry.owner cache.entries key = some entry from
          present] at missing
        cases missing
      · have accepted := (wellFormed.set_accepted used future
          (set_of_not_refuses refuses).1).1
        rw [accepted, Option.some.injEq] at holds
        exact .inr (.inl ⟨rfl, holds⟩)
  · left
    refine ⟨same, ?_⟩
    rw [set] at holds
    split at holds
    · exact holds
    · split at holds
      · exact holds
      · next _ used =>
          split at holds
          · next entries placed =>
              rcases place_spec wellFormed (LockEntry.owner_mk
                (Bool.eq_false_of_not_eq_true used) expiresAt) placed with
                ⟨_, _, others⟩
              rw [held_eq_some_iff] at holds ⊢
              rcases others key same with kept | ⟨gone, _⟩
              · exact kept.symm.trans holds
              · have impossible := gone.symm.trans holds
                cases impossible
          · exact holds

theorem WellFormed.held_clear_cases (wellFormed : cache.WellFormed)
    (holds : (cache.clear username).1.held key = some found) :
    key ≠ username ∧ cache.held key = some found := by
  rcases @release_spec _ _ _ _ _ cache.entries username .new wellFormed
    LockEntry.owner_new with ⟨_, gone, others⟩
  rw [held_eq_some_iff] at holds ⊢
  by_cases same : key = username
  · subst same
    have impossible := gone.symm.trans holds
    cases impossible
  · exact ⟨same, (others key same).symm.trans holds⟩

/-- Where a lockout held after the decisions of a commit comes from: it was
there and the commit said nothing about the user, or the commit set it, or it
was there and the commit came too late to replace it. -/
def Origin (cache : LockCache) (now : TimestampTz)
    (decisions : List (EncodedUsername × CacheDecision))
    (key : EncodedUsername) (found : TimestampTz) : Prop :=
  (key ∉ decisions.map Prod.fst ∧ cache.held key = some found) ∨
    (key, .setLock found) ∈ decisions ∨
    (cache.held key = some found ∧
      ∃ expiresAt, expiresAt ≤ now ∧ (key, .setLock expiresAt) ∈ decisions)

theorem WellFormed.origin_single (wellFormed : cache.WellFormed)
    {decision : CacheDecision}
    (holds : (cache.applyDecision now (username, decision)).held key =
      some found) :
    Origin cache now [(username, decision)] key found := by
  cases decision with
  | setLock expiresAt =>
      rcases wellFormed.held_set_cases holds with
        ⟨different, before⟩ | ⟨rfl, rfl⟩ | ⟨rfl, before, late⟩
      · exact .inl ⟨by simpa using different, before⟩
      · exact .inr (.inl List.mem_cons_self)
      · exact .inr (.inr ⟨before, expiresAt, late, List.mem_cons_self⟩)
  | clearLock =>
      rcases wellFormed.held_clear_cases holds with ⟨different, before⟩
      exact .inl ⟨by simpa using different, before⟩

theorem WellFormed.origin (wellFormed : cache.WellFormed)
    {decisions : List (EncodedUsername × CacheDecision)}
    (distinct : (decisions.map Prod.fst).Nodup)
    (holds : (decisions.foldl (applyDecision now) cache).held key =
      some found) : Origin cache now decisions key found := by
  induction decisions generalizing cache with
  | nil => exact .inl ⟨List.not_mem_nil, holds⟩
  | cons first rest induction =>
      rcases first with ⟨username, decision⟩
      rw [List.map_cons, List.nodup_cons] at distinct
      have formed := (wellFormed.applyDecision_result now username decision).1
      rcases induction formed distinct.2 holds with
        ⟨absent, between⟩ | landed | ⟨between, expiresAt, late, member⟩
      · rcases wellFormed.origin_single between with
          ⟨different, before⟩ | landed | ⟨before, expiresAt, late, member⟩
        · refine .inl ⟨?_, before⟩
          rw [List.map_cons, List.mem_cons, not_or]
          exact ⟨by simpa using different, absent⟩
        · rw [List.mem_singleton] at landed
          exact .inr (.inl (landed ▸ List.mem_cons_self))
        · rw [List.mem_singleton] at member
          exact .inr (.inr ⟨before, expiresAt, late,
            member ▸ List.mem_cons_self⟩)
      · exact .inr (.inl (List.mem_cons_of_mem _ landed))
      · -- the decisions are about different users
        have different : key ≠ username := by
          intro same
          apply distinct.1
          rw [← same]
          exact List.mem_map.mpr ⟨_, member, rfl⟩
        rcases wellFormed.origin_single between with
          ⟨_, before⟩ | landed | ⟨before, _⟩
        · exact .inr (.inr ⟨before, expiresAt, late,
            List.mem_cons_of_mem _ member⟩)
        · rw [List.mem_singleton, Prod.mk.injEq] at landed
          exact absurd landed.1 different
        · exact .inr (.inr ⟨before, expiresAt, late,
            List.mem_cons_of_mem _ member⟩)

end LockCache

/-- What a cache is told about a locked name is in the table it writes. -/
theorem Effect.Prepared.lockoutUntil_publish {effect : Effect}
    {table : LoginAttempts} {clock expiresAt : TimestampTz}
    {key : EncodedUsername} (prepared : effect.Prepared clock)
    (decided : (key, .setLock expiresAt) ∈ effect.lockDecisions) :
    ∃ username ∈ effect.locked, key = encodeUsername username ∧
      LoginAttempts.lockoutUntil (effect.publish table) username =
        some expiresAt := by
  rcases prepared.described with ⟨decidedAt, _, describes⟩
  rw [describes.decisions, List.mem_map] at decided
  rcases decided with ⟨username, locked, same⟩
  rw [Prod.mk.injEq] at same
  refine ⟨username, locked, same.1.symm, ?_⟩
  rw [LoginAttempts.lockoutUntil, effect.lookup_publish, if_pos locked]
  have decision := same.2
  rw [decisionFromDb, LoginAttempts.lockoutUntil] at decision
  cases until_ : (effect.table.lookup username).bind
      LoginAttempt.lockoutUntil with
  | none =>
      rw [until_] at decision
      cases decision
  | some found =>
      rw [until_, decisionFor] at decision
      split at decision
      · cases decision
        rfl
      · cases decision

theorem Effect.Prepared.distinct {effect : Effect} {clock : TimestampTz}
    (prepared : effect.Prepared clock) :
    (effect.lockDecisions.map Prod.fst).Nodup ∧
      effect.lockDecisions.map Prod.fst =
        effect.locked.map encodeUsername := by
  rcases prepared.described with ⟨decidedAt, _, describes⟩
  have users : effect.lockDecisions.map Prod.fst =
      effect.locked.map encodeUsername := by
    rw [describes.decisions, List.map_map]
    rfl
  refine ⟨?_, users⟩
  rw [users]
  apply describes.distinct.map_on
  intro left leftMember right rightMember same
  exact encodeUsername_injective (prepared.roles left leftMember)
    (prepared.roles right rightMember) same

theorem Snapshot.held_install_row {table : LoginAttempts}
    (roles : table.RoleNames) {cache : LockCache}
    {now appliedAt found : TimestampTz} {key : EncodedUsername}
    (holds : ((read table now).install cache appliedAt).1.held key =
      some found) :
    ∃ username, key = encodeUsername username ∧
      table.lockoutUntil username = some found := by
  have activeRoles := roles.activeRoles now
  have spec := (LockCache.applyHydratedEntries_spec cache
    (read table now).activeTotal (read table now).overflow
    (read table now).newState appliedAt (read_distinct activeRoles)
    (read_fits activeRoles)).2 key found
  have member := (spec.mp holds).1
  rw [read_prepared activeRoles, List.mem_map] at member
  rcases member with ⟨⟨username, expiresAt⟩, selected, same⟩
  rw [LockEntry.mk.injEq] at same
  have active := LoginAttempts.mem_activeRows.mp
    (Selection.mem_of_mem_select selected)
  refine ⟨username, same.1.symm, ?_⟩
  rw [← same.2]
  exact active.1

/-! ## Whatever is cached was committed -/

namespace World

def Documented (initial : World) (past : List Action) (world : World) :
    Prop :=
  ∀ key found, world.cache.held key = some found →
    ∃ username earlier later state, key = encodeUsername username ∧
      past = earlier ++ later ∧ machine.run initial earlier = some state ∧
      state.table.lockoutUntil username = some found

variable {initial world next : World} {past : List Action}

theorem Documented.extend (documented : Documented initial past world)
    (action : Action) {key : EncodedUsername} {found : TimestampTz}
    (holds : world.cache.held key = some found) :
    ∃ username earlier later state, key = encodeUsername username ∧
      past ++ [action] = earlier ++ later ∧
      machine.run initial earlier = some state ∧
      state.table.lockoutUntil username = some found := by
  rcases documented key found holds with
    ⟨username, earlier, later, state, same, split, reached, locked⟩
  refine ⟨username, earlier, later ++ [action], state, same, ?_, reached,
    locked⟩
  rw [split, List.append_assoc]

/-- Only a commit and a hydration write into the cache. -/
theorem step_cache_cases {action : Action}
    (stepped : world.step action = some next) :
    (next.cache.entries = world.cache.entries ∧ next.table = world.table ∧
        world.clock ≤ next.clock) ∨
      (∃ backend startedAt effect, action = .commit backend ∧
        world.sessions.lookup backend = some ⟨startedAt, some effect⟩ ∧
        next.table = effect.publish world.table ∧
        next.cache = effect.lockDecisions.foldl
          (LockCache.applyDecision world.clock) world.cache ∧
        next.clock = world.clock) ∨
      ∃ startedAt snapshot, action = .hydrationApply ∧
        world.hydration = some ⟨startedAt, some snapshot⟩ ∧
        next.table = world.table ∧
        next.cache = (snapshot.install world.cache world.clock).1 ∧
        next.clock = world.clock := by
  cases action with
  | commit backend =>
      rw [World.step, World.commit] at stepped
      split at stepped
      · next startedAt effect found =>
          cases stepped
          exact .inr (.inl ⟨backend, startedAt, effect, rfl, found, rfl, rfl,
            rfl⟩)
      · cases stepped
  | hydrationApply =>
      rw [World.step, World.hydrationApply] at stepped
      split at stepped
      · next startedAt snapshot reading =>
          cases stepped
          exact .inr (.inr ⟨startedAt, snapshot, rfl, reading, rfl, rfl,
            rfl⟩)
      · cases stepped
  | tick clock =>
      rw [World.step, World.tick] at stepped
      split at stepped
      · next advances =>
          cases stepped
          exact .inl ⟨rfl, rfl, advances⟩
      · cases stepped
  | begin backend =>
      rw [World.step, World.begin] at stepped
      split at stepped <;> cases stepped
      exact .inl ⟨rfl, rfl, le_refl _⟩
  | execute backend call =>
      rw [World.step, World.execute] at stepped
      split at stepped
      · split at stepped
        · split at stepped
          · cases stepped
            exact .inl ⟨rfl, rfl, le_refl _⟩
          · split at stepped <;> cases stepped
            exact .inl ⟨rfl, rfl, le_refl _⟩
        · cases stepped
      · cases stepped
  | abort backend =>
      cases stepped
      exact .inl ⟨rfl, rfl, le_refl _⟩
  | hydrationBegin =>
      rw [World.step, World.hydrationBegin] at stepped
      split at stepped <;> cases stepped
      exact .inl ⟨rfl, rfl, le_refl _⟩
  | hydrationRead =>
      rw [World.step, World.hydrationRead] at stepped
      split at stepped
      · split at stepped <;> cases stepped
        exact .inl ⟨rfl, rfl, le_refl _⟩
      · cases stepped
  | hydrationEnd =>
      cases stepped
      exact .inl ⟨rfl, rfl, le_refl _⟩
  | hydrationFailed =>
      rw [World.step, World.hydrationFailed] at stepped
      split at stepped <;> cases stepped
      exact .inl ⟨rfl, rfl, le_refl _⟩

theorem Documented.step {action : Action}
    (documented : Documented initial past world) (sound : world.Sound)
    (reached : machine.run initial past = some world)
    (stepped : world.step action = some next) :
    Documented initial (past ++ [action]) next := by
  have now : machine.run initial (past ++ [action]) = some next :=
    Machine.run_concat_eq_some.mpr ⟨world, reached, stepped⟩
  intro key found holds
  rcases step_cache_cases stepped with
    ⟨same, _⟩ | ⟨backend, startedAt, effect, _, opened, table, cache, _⟩ |
      ⟨startedAt, snapshot, _, reading, table, cache, _⟩
  · rw [LockCache.held, same] at holds
    exact documented.extend action holds
  · have prepared := sound.sessions backend _ opened effect rfl
    rw [cache] at holds
    rcases sound.wellFormed.origin prepared.distinct.1 holds with
      ⟨_, before⟩ | landed | ⟨before, _⟩
    · exact documented.extend action before
    · rcases prepared.lockoutUntil_publish landed with
        ⟨username, _, same, locked⟩
      refine ⟨username, past ++ [action], [], next, same, ?_, now, ?_⟩
      · rw [List.append_nil]
      · rw [table]
        exact locked
    · exact documented.extend action before
  · rcases sound.snapshot startedAt snapshot reading with ⟨rfl, _⟩
    rw [cache] at holds
    rcases Snapshot.held_install_row sound.roles holds with
      ⟨username, same, locked⟩
    refine ⟨username, past ++ [action], [], next, same, ?_, now, ?_⟩
    · rw [List.append_nil]
    · rw [table]
      exact locked

end World

/-- The lock cache refuses nobody on its own account: a refused role was locked
in the committed table at some point of the run, until the instant that the
remaining seconds are counted to. -/
theorem run_lockouts_committed {table : LoginAttempts}
    (roles : table.RoleNames) {clock : TimestampTz} {actions : List Action}
    {world : World}
    (completed : World.machine.run (.start table clock) actions = some world)
    {username : String} (isRole : IsRoleName username)
    {instant : TimestampTz} {seconds : Int}
    (refused : world.cache.remainingSeconds username instant =
      some seconds) :
    ∃ earlier later state expiresAt, actions = earlier ++ later ∧
      World.machine.run (.start table clock) earlier = some state ∧
      state.table.lockoutUntil username = some expiresAt ∧
      remainingSecondsCeil expiresAt instant = some seconds := by
  have documented : World.Documented (.start table clock) actions world := by
    apply Machine.run_history _ _ completed
    · intro key found holds
      rw [show (World.start table clock).cache.held key = none from
        LockCache.held_init key] at holds
      cases holds
    · intro past state action next reached before stepped
      exact before.step (World.sound_run roles reached) reached stepped
  rcases Option.bind_eq_some_iff.mp refused with ⟨expiresAt, active, counted⟩
  have wellFormed := (World.sound_run roles completed).wellFormed
  rcases documented _ expiresAt
      (wellFormed.findActive_eq_some_iff.mp active).1 with
    ⟨role, earlier, later, state, same, split, reached, locked⟩
  -- the key names one role only
  have known : IsRoleName role := by
    rcases Option.bind_eq_some_iff.mp locked with ⟨_, found, _⟩
    exact (World.sound_run roles reached).roles role (by rw [found]; rfl)
  have equal := encodeUsername_injective isRole known same
  refine ⟨earlier, later, state, expiresAt, split, reached, ?_, counted⟩
  rw [equal]
  exact locked

/-! ## The cache beside the table -/

theorem LockCache.WellFormed.held_of_late {cache : LockCache}
    (wellFormed : cache.WellFormed) {key : EncodedUsername}
    {now expiresAt found : TimestampTz}
    {decisions : List (EncodedUsername × CacheDecision)}
    (distinct : (decisions.map Prod.fst).Nodup)
    (decided : (key, .setLock expiresAt) ∈ decisions) (late : expiresAt ≤ now)
    (holds : cache.held key = some found) (active : now < found) :
    (decisions.foldl (applyDecision now) cache).held key = some found := by
  induction decisions generalizing cache with
  | nil => cases decided
  | cons first rest induction =>
      rcases first with ⟨username, decision⟩
      rw [List.map_cons, List.nodup_cons] at distinct
      have result := wellFormed.applyDecision_result now username decision
      rw [List.foldl_cons]
      rcases List.mem_cons.mp decided with here | later
      · rw [Prod.mk.injEq] at here
        rcases here with ⟨rfl, rfl⟩
        have ignored : cache.applyDecision now (key, .setLock expiresAt) =
            cache := congrArg Prod.fst (set_expired cache key late)
        rw [ignored]
        exact (wellFormed.applyDecisions_result now rest distinct.2).2.1 key
          distinct.1 found holds active
      · have different : key ≠ username := by
          rintro rfl
          exact distinct.1 (List.mem_map.mpr ⟨_, later, rfl⟩)
        exact induction result.1 distinct.2 later
          (result.2.1 key different found holds active)

def ended (now : TimestampTz) : CacheDecision → Bool
  | .setLock expiresAt => decide (expiresAt ≤ now)
  | .clearLock => false

namespace World

/-- For every role the cache reports what the table says; a cache that is not
ready may report nothing instead. -/
def Mirrors (world : World) : Prop :=
  ∀ username, IsRoleName username → ∀ instant, world.clock ≤ instant →
    world.cache.remainingSeconds username instant =
        (world.table.lockoutUntil username).bind
          (remainingSecondsCeil · instant) ∨
      (world.cache.remainingSeconds username instant = none ∧
        world.cache.readState ≠ .ready)

/-- Where a commit applies a lockout that has already ended, it has nothing to
replace. -/
def InTime (world : World) : Action → Prop
  | .commit backend => ∀ session ∈ world.sessions.lookup backend,
      ∀ effect ∈ session.effect, ∀ entry ∈ effect.lockDecisions,
        ended world.clock entry.2 →
          world.cache.findActive entry.1 world.clock = none
  | _ => True

instance decidableInTime (world : World) :
    ∀ action, Decidable (world.InTime action)
  | .commit _ => inferInstanceAs (Decidable (∀ _ ∈ _, ∀ _ ∈ _, ∀ _ ∈ _, _))
  | .tick _ => .isTrue trivial
  | .begin _ => .isTrue trivial
  | .execute _ _ => .isTrue trivial
  | .abort _ => .isTrue trivial
  | .hydrationBegin => .isTrue trivial
  | .hydrationRead => .isTrue trivial
  | .hydrationApply => .isTrue trivial
  | .hydrationEnd => .isTrue trivial
  | .hydrationFailed => .isTrue trivial

def Truthful (world : World) : Prop :=
  ∀ key found, world.cache.held key = some found → world.clock < found →
    ∃ username, key = encodeUsername username ∧
      world.table.lockoutUntil username = some found

variable {world next : World}

theorem Truthful.mirrors (truthful : world.Truthful) (sound : world.Sound) :
    world.Mirrors := by
  intro username isRole instant current
  rw [LockCache.remainingSeconds]
  cases active : world.cache.findActive (encodeUsername username) instant with
  | some found =>
      left
      have held := sound.wellFormed.findActive_eq_some_iff.mp active
      rcases truthful _ found held.1 (lt_of_le_of_lt current held.2) with
        ⟨role, same, locked⟩
      have known : IsRoleName role := by
        rcases Option.bind_eq_some_iff.mp locked with ⟨_, row, _⟩
        exact sound.roles role (by rw [row]; rfl)
      rw [encodeUsername_injective isRole known same, locked]
  | none =>
      by_cases ready : world.cache.readState = .ready
      · left
        cases locked : world.table.lockoutUntil username with
        | none => rfl
        | some expiresAt =>
            have ended : expiresAt ≤ instant := by
              by_contra lasting
              have later := not_le.mp lasting
              have held := sound.covered ready username expiresAt locked
                (lt_of_le_of_lt current later)
              rw [sound.wellFormed.findActive_eq_some_iff.mpr ⟨held, later⟩]
                at active
              cases active
            exact (if_pos ended).symm
      · exact .inr ⟨rfl, ready⟩

theorem Truthful.step {action : Action} (truthful : world.Truthful)
    (sound : world.Sound) (inTime : world.InTime action)
    (stepped : world.step action = some next) : next.Truthful := by
  intro key found holds active
  rcases step_cache_cases stepped with
    ⟨same, table, later⟩ |
      ⟨backend, startedAt, effect, rfl, opened, table, cache, clock⟩ |
      ⟨startedAt, snapshot, _, reading, table, cache, _⟩
  · rw [LockCache.held, same] at holds
    rw [table]
    exact truthful key found holds (lt_of_le_of_lt later active)
  · have prepared := sound.sessions backend _ opened effect rfl
    rw [cache] at holds
    rw [clock] at active
    rw [table]
    rcases sound.wellFormed.origin prepared.distinct.1 holds with
      ⟨absent, before⟩ | landed | ⟨before, expiresAt, late, decided⟩
    · rcases truthful key found before active with ⟨username, same, locked⟩
      refine ⟨username, same, ?_⟩
      have unwritten : username ∉ effect.locked := by
        intro member
        apply absent
        rw [prepared.distinct.2, same]
        exact List.mem_map.mpr ⟨username, member, rfl⟩
      rw [LoginAttempts.lockoutUntil, effect.lookup_publish,
        if_neg unwritten]
      exact locked
    · rcases prepared.lockoutUntil_publish landed with
        ⟨username, _, same, locked⟩
      exact ⟨username, same, locked⟩
    · exfalso
      have missing := inTime _ opened effect rfl _ decided
        (decide_eq_true late)
      rw [sound.wellFormed.findActive_eq_some_iff.mpr ⟨before, active⟩]
        at missing
      cases missing
  · rcases sound.snapshot startedAt snapshot reading with ⟨rfl, _⟩
    rw [cache] at holds
    rw [table]
    exact Snapshot.held_install_row sound.roles holds

theorem inTime_of_mirrors (sound : world.Sound) {action : Action}
    (after : ∀ next, world.step action = some next → next.Mirrors) :
    world.InTime action := by
  cases action with
  | commit backend =>
      rintro ⟨startedAt, _⟩ opened effect rfl ⟨key, decision⟩ decided isOver
      cases decision with
      | clearLock => cases isOver
      | setLock expiresAt =>
      have late : expiresAt ≤ world.clock := of_decide_eq_true isOver
      by_contra cachedBefore
      have prepared := sound.sessions backend _ opened effect rfl
      rcases Option.ne_none_iff_exists'.mp cachedBefore with ⟨found, active⟩
      have held := sound.wellFormed.findActive_eq_some_iff.mp active
      rcases prepared.lockoutUntil_publish decided with
        ⟨username, member, same, locked⟩
      have kept := sound.wellFormed.held_of_late prepared.distinct.1 decided
        late held.1 held.2
      have stepped : world.step (.commit backend) = some { world with
          table := effect.publish world.table
          cache := effect.lockDecisions.foldl
            (LockCache.applyDecision world.clock) world.cache
          sessions := world.sessions.erase backend } := by
        rw [World.step, World.commit, opened]
      have formed := (sound.step stepped).wellFormed
      have cached := formed.findActive_eq_some_iff.mpr ⟨kept, held.2⟩
      rw [same] at cached
      have counted : ∃ seconds, remainingSecondsCeil found world.clock =
          some seconds := by
        rw [remainingSecondsCeil, if_neg (not_le.mpr held.2)]
        exact ⟨_, rfl⟩
      rcases counted with ⟨seconds, counted⟩
      have reported : LockCache.remainingSeconds
          (effect.lockDecisions.foldl (LockCache.applyDecision world.clock)
            world.cache) username world.clock = some seconds := by
        rw [LockCache.remainingSeconds, cached]
        exact counted
      rcases after _ stepped username (prepared.roles username member)
          world.clock (le_refl _) with agrees | silent
      · rw [reported, locked, Option.bind_some, remainingSecondsCeil,
          if_pos late] at agrees
        cases agrees
      · rw [reported] at silent
        cases silent.1
  | _ => trivial

end World

/-- The cache mirrors the table at every point of a run exactly when every
commit of the run comes in time. -/
theorem lockCache_mirrors_iff {table : LoginAttempts}
    (roles : table.RoleNames) (clock : TimestampTz)
    (actions : List Action) :
    World.machine.EveryStep World.InTime (.start table clock) actions ↔
      ∀ earlier later state, actions = earlier ++ later →
        World.machine.run (.start table clock) earlier = some state →
        state.Mirrors := by
  constructor
  · intro inTime earlier later state split reached
    have sound := World.sound_run roles reached
    have timely : World.machine.EveryStep World.InTime (.start table clock)
        earlier := by
      rw [Machine.everyStep_iff] at inTime ⊢
      intro before action after middle inner passed
      apply inTime before action (after ++ later) middle _ passed
      rw [split, inner, List.append_assoc]
      rfl
    have both : state.Sound ∧ state.Truthful := by
      apply Machine.run_invariant_of_everyStep _ _ timely reached
      · intro middle action next holds met stepped
        exact ⟨holds.1.step stepped, holds.2.step holds.1 met stepped⟩
      · refine ⟨World.sound_start roles clock, fun key found holds => ?_⟩
        rw [show (World.start table clock).cache.held key = none from
          LockCache.held_init key] at holds
        cases holds
    exact both.2.mirrors sound
  · intro mirrors
    rw [Machine.everyStep_iff]
    intro earlier action later state split reached
    apply World.inTime_of_mirrors (World.sound_run roles reached)
    intro next stepped
    apply mirrors (earlier ++ [action]) later next
    · rw [split, List.append_assoc]
      rfl
    · exact Machine.run_concat_eq_some.mpr ⟨state, reached, stepped⟩

theorem lockedAfterHydration_committed :
    ∃ world earlier later state expiresAt,
      World.machine.run (.start ∅ 0) lockedAfterHydration = some world ∧
      world.cache.remainingSeconds "alice" 50 = some 300 ∧
      lockedAfterHydration = earlier ++ later ∧
      World.machine.run (.start ∅ 0) earlier = some state ∧
      state.table.lockoutUntil "alice" = some expiresAt ∧
      remainingSecondsCeil expiresAt 50 = some 300 := by
  have roles : LoginAttempts.RoleNames ∅ := fun _ found => by cases found
  have summary : (World.machine.run (.start ∅ 0) lockedAfterHydration).map
      (fun world => (world.cache.readState, world.clock,
        world.table.lookup "alice")) =
      some (.ready, 40, some ⟨2, 20, some 300000020⟩) := by decide +kernel
  rcases Option.map_eq_some_iff.mp summary with ⟨world, completed, read⟩
  simp only [Prod.mk.injEq] at read
  rcases read with ⟨ready, clock, committed⟩
  have cached : world.cache.findActive (encodeUsername "alice") 50 =
      some 300000020 :=
    run_ready_findsLockout roles completed ready committed rfl
      (by rw [clock]; decide) (by decide)
  have refused : world.cache.remainingSeconds "alice" 50 = some 300 := by
    rw [LockCache.remainingSeconds, cached]
    decide
  have isRole : IsRoleName "alice" := by decide +kernel
  rcases run_lockouts_committed roles completed isRole refused with
    ⟨earlier, later, state, expiresAt, found⟩
  exact ⟨world, earlier, later, state, expiresAt, completed, refused, found⟩

def aliceLocked : LoginAttempts :=
  AList.insert "alice" ⟨2, 0, some 300000000⟩ ∅

theorem aliceLocked_roles : aliceLocked.RoleNames := by
  intro username found
  by_cases same : username = "alice"
  · rw [same]
    decide +kernel
  · rw [aliceLocked, AList.lookup_insert_ne same] at found
    cases found

/-- The lockout is to be shortened by a commit that comes after the new
end. -/
def beforeLateCommit : List Action :=
  [.hydrationBegin, .hydrationRead, .hydrationApply, .hydrationEnd, .begin 1,
    .execute 1 (.recordFailedLogin "alice" ⟨false, false, 1, 2⟩),
    .tick 100000000]

theorem lateCommit_not_mirrored :
    (∀ earlier later state, lockedAfterHydration = earlier ++ later →
        World.machine.run (.start ∅ 0) earlier = some state →
        state.Mirrors) ∧
      ¬∀ earlier later state,
        beforeLateCommit ++ [.commit 1] = earlier ++ later →
        World.machine.run (.start aliceLocked 0) earlier = some state →
        state.Mirrors := by
  constructor
  · have roles : LoginAttempts.RoleNames ∅ := fun _ found => by cases found
    apply (lockCache_mirrors_iff roles 0 lockedAfterHydration).mp
    decide +kernel
  intro mirrors
  have inTime := Machine.everyStep_iff.mp
    ((lockCache_mirrors_iff aliceLocked_roles 0 _).mpr mirrors)
  have summary : (World.machine.run (.start aliceLocked 0) beforeLateCommit).map
      (fun world => (world.cache.readState, world.clock,
        world.table.lookup "alice")) =
      some (.ready, 100000000, some ⟨2, 0, some 300000000⟩) := by
    decide +kernel
  have decided : ((World.machine.run (.start aliceLocked 0) beforeLateCommit).bind
      fun world => (world.sessions.lookup 1).bind fun session =>
        session.effect.map Effect.lockDecisions) =
      some [(encodeUsername "alice", .setLock 60000000)] := by decide +kernel
  rcases Option.map_eq_some_iff.mp summary with ⟨world, completed, read⟩
  simp only [Prod.mk.injEq] at read
  rcases read with ⟨ready, clock, committed⟩
  rw [completed, Option.bind_some] at decided
  have cached := run_ready_findsLockout aliceLocked_roles completed ready committed rfl
    (le_refl _) (by rw [clock]; decide)
  rcases Option.bind_eq_some_iff.mp decided with ⟨session, opened, inner⟩
  rcases Option.map_eq_some_iff.mp inner with ⟨effect, returned, decisions⟩
  have missing := inTime beforeLateCommit (.commit 1) [] world rfl completed
    session opened effect returned (encodeUsername "alice", .setLock 60000000)
  rw [decisions, clock] at missing
  have gone := missing List.mem_cons_self (by decide)
  rw [← clock, cached] at gone
  cases gone

end PasswordProfile.Lockout
