import Lookaside.Proofs.Lateness
import Lookaside.Proofs.Walk
import Mathlib

/-!
# Settings with which the demonstration fails

The environment may ask for a cache that there is no room for, and for a lifetime that leads beyond the end of the
clock. The second shows as soon as a value is written too late. The last value to be written decides: the new name
of the first row, or without rows the last marker. With all other settings the demonstration goes through.
-/

namespace Lookaside.Demo

/-! ## Moments -/

def Circumstances.moment (c : Circumstances) (n : Nat) : Nat :=
  c.start + (c.pauses.take n).sum

/-- When the last value is written, if any is: with rows the seventh call after the new ones are saved renames the
first of them, and without rows the first three calls see to it that there is a marker. -/
def Circumstances.lastWrite (c : Circumstances) (ttl : Span) (count : Nat) : Nat :=
  if count = 0 then remarked ttl (remarked ttl (c.moment 1) (c.moment 2)) (c.moment 3) else c.moment (count + 7)

variable {α β : Type} {c c' : Course} {late : Prop} {limit n spare : Nat} {t t' : Table Domain}
  {settings : Settings}

def Course.moment (c : Course) (n : Nat) : Nat :=
  c.world.link.memory.now + (c.pauses.take n).sum

theorem Course.moment_succ (c : Course) (n : Nat) :
    c.moment (n + 1) = c.next.link.memory.now + (c.pauses.tail.take n).sum := by
  have sum : (c.pauses.take (n + 1)).sum = c.pauses.headD 0 + (c.pauses.tail.take n).sum := by
    cases c.pauses with
    | nil => simp
    | cons pause pauses => exact List.sum_cons
  rw [moment, sum, ← Nat.add_assoc]
  rfl

/-! ## Walks that may end early -/

abbrev Passing (late : Prop) (c : Course) (x : Walk α) (P : α → Course → Prop) : Prop :=
  Reaches late (Failure.overflow .deadline) x c P

theorem passing_report {m : Log.Milestone} {x : Walk α} {P : α → Course → Prop} (h : Passing late c x P) :
    Passing late c (Walk.report m >>= fun _ => x) P :=
  Reaches.bind (P := fun _ c' => c' = c) (.inr ⟨(), rfl, rfl⟩) fun _ _ same => same ▸ h

theorem passing_call {x : Effect (Table Domain) Int32 (Except RepositoryError α)} (steady : Act.Steady x.run)
    {P : α → World (Table Domain) → Prop}
    (h : Reaches late .deadline x c.next fun answer w' => ∃ a, answer = .ok a ∧ P a w') :
    Passing late c (Walk.call x) fun a c' => P a c'.world ∧
      c'.world.link.faults = c.world.link.faults ∧ ∀ n, c'.moment n = c.moment (n + 1) := by
  rcases h with ⟨late, value⟩ | ⟨_, value, a, rfl, holds⟩
  · refine .inl ⟨late, ?_⟩
    show (Walk.call x c).value = _
    simp only [Walk.call, value]
  · have leads := leads_call steady value
    refine .inr ⟨a, leads.value, ?_⟩
    rw [leads.state]
    refine ⟨holds, steady.faults c.next, fun n => ?_⟩
    exact (congrArg (· + _) (steady.now c.next)).trans (c.moment_succ n).symm

structure Working (t : Table Domain) (c : Course) : Prop where
  keeper : c.world.keeper = t
  never : c.world.link.faults = .never

theorem Working.writable (working : Working t c) : c.next.link.faults.SpareWrites :=
  (working.never : c.next.link.faults = .never) ▸ Cache.Faults.never_spareWrites

theorem Working.call (working : Working t c) {x : Effect (Table Domain) Int32 (Except RepositoryError α)}
    (steady : Act.Steady x.run) {P : α → Prop} (yields : Yields late c.next x P t') :
    Passing late c (Walk.call x) fun a c' => P a ∧ Working t' c' ∧ ∀ n, c'.moment n = c.moment (n + 1) :=
  (passing_call steady yields).mono id fun _ _ ⟨⟨holds, keeper⟩, faults, moments⟩ =>
    ⟨holds, ⟨keeper, faults.trans working.never⟩, moments⟩

structure Onward (limit n : Nat) (t : Table Domain) (c : Course) : Prop extends Working t c where
  moment : c.moment n = limit

theorem Onward.overdue {m : Memory} (onward : Onward limit (n + 1) t c) (now : m.now = c.next.link.memory.now)
    (late : m.Late settings.options.ttl) : Overdue settings.ttl limit := by
  refine (Memory.late_some.1 late).mono ?_
  rw [now, ← onward.moment, c.moment_succ]
  exact Nat.le_add_right _ _

theorem Onward.call (onward : Onward limit (n + 1) t c)
    {x : Effect (Table Domain) Int32 (Except RepositoryError α)} (steady : Act.Steady x.run) {P : α → Prop}
    (yields : Yields (c.next.link.memory.Late settings.options.ttl) c.next x P t') :
    Passing (Overdue settings.ttl limit) c (Walk.call x) fun a c' => P a ∧ Onward limit n t' c' :=
  (onward.toWorking.call steady yields).mono (onward.overdue rfl) fun _ _ ⟨holds, working, moments⟩ =>
    ⟨holds, working, (moments n).trans onward.moment⟩

theorem Onward.getMany (onward : Onward limit (n + 1) t c) (filed : t.Filed) (ids : List Int32) :
    Passing (Overdue settings.ttl limit) c (Walk.call ((Table.cached Domain settings.options).getMany ids))
      fun _ c' => Onward limit n t c' := by
  obtain rfl := onward.keeper
  exact (onward.call (CachedRepository.steady_getMany _ ids)
    (yields_getMany (w := c.next) onward.writable filed ids)).mono id fun _ _ => And.right

theorem Onward.save (onward : Onward limit (n + 1) t c) {d saved : Domain}
    (written : t.save d = (.ok saved, t')) :
    Passing (Overdue settings.ttl limit) c (Walk.call ((Table.cached Domain settings.options).save d))
      fun a c' => a = saved ∧ Onward limit n t' c' := by
  obtain rfl := onward.keeper
  exact onward.call (CachedRepository.steady_save _ d) (yields_save (w := c.next) onward.writable written)

theorem Onward.get (onward : Onward limit (n + 1) t c) (filed : t.Filed) {id : Int32} {d : Domain}
    (row : t.get id = some d) :
    Passing (Overdue settings.ttl limit) c (Walk.call ((Table.cached Domain settings.options).get id))
      fun found c' => found.isSome = true ∧ Onward limit n t c' := by
  obtain rfl := onward.keeper
  exact onward.call (CachedRepository.steady_get _ id) (yields_get (w := c.next) onward.writable filed row)

theorem Onward.count (onward : Onward limit (n + 1) t c) :
    Passing late c (Walk.call (Table.cached Domain settings.options).count) fun _ c' => Onward limit n t c' := by
  obtain rfl := onward.keeper
  exact (onward.toWorking.call (CachedRepository.steady_count _) (yields_count (w := c.next))).mono False.elim
    fun _ _ ⟨_, working, moments⟩ => ⟨working, (moments n).trans onward.moment⟩

theorem Working.count (working : Working t c) :
    Passing late c (Walk.call (Table.cached Domain settings.options).count) fun _ c' => Working t c' := by
  obtain rfl := working.keeper
  exact (working.call (CachedRepository.steady_count _) (yields_count (w := c.next))).mono False.elim
    fun _ _ done => done.2.1

theorem Working.contains (working : Working t c) (id : Int32) :
    Passing late c (Walk.call ((Table.cached Domain settings.options).contains id)) fun _ c' => Working t c' := by
  obtain rfl := working.keeper
  exact (working.call (CachedRepository.steady_contains _ id) (yields_contains (w := c.next) id)).mono False.elim
    fun _ _ done => done.2.1

theorem Working.delete (working : Working t c) {d : Domain} (deleted : t.delete d = (.ok (), t')) :
    Passing late c (Walk.call ((Table.cached Domain settings.options).delete d)) fun _ c' => Working t' c' := by
  obtain rfl := working.keeper
  exact (working.call (CachedRepository.steady_delete _ d)
    (yields_delete (w := c.next) working.writable deleted)).mono False.elim fun _ _ done => done.2.1

theorem Working.attempt (working : Working t c) {d : Domain} {error : RepositoryError}
    (refused : t.save d = (.error error, t)) :
    Passing late c (Walk.attempt ((Table.cached Domain settings.options).save d)) fun _ c' => Working t c' := by
  obtain rfl := working.keeper
  have steady := (Table.cached Domain settings.options).steady_save d
  have saved : Reaches False .deadline ((Table.cached Domain settings.options).save d) c.next _ :=
    reaches_refused (w := c.next) working.writable refused
  obtain ⟨⟨⟩, -⟩ | ⟨answer, value, keeper⟩ := saved
  have leads := leads_attempt steady value
  refine .inr ⟨answer, leads.value, ?_⟩
  rw [leads.state]
  exact ⟨keeper, (steady.faults c.next).trans working.never⟩

/-! ## A walk with rows -/

theorem passing_readEmpty (onward : Onward limit (n + 2) .empty c) :
    Passing (Overdue settings.ttl limit) c (readEmpty (Table.cached Domain settings.options))
      fun _ c' => Onward limit n .empty c' := by
  refine (onward.getMany Table.filed_empty []).bind fun _ _ onward => passing_report ?_
  refine (onward.getMany Table.filed_empty []).bind fun _ _ onward => ?_
  exact .inr ⟨(), rfl, onward⟩

theorem passing_saveAll {ds : List Domain} (onward : Onward limit (ds.length + n) t c)
    (growing : t.Growing (ds.length + spare)) (new : ∀ d ∈ ds, Table.creates d = true) :
    Passing (Overdue settings.ttl limit) c (saveAll (Table.cached Domain settings.options) ds)
      fun saved c' => saved = Table.numbered t.nextId ds ∧ Onward limit n (t.adding ds) c' := by
  induction ds generalizing t c with
  | nil => exact .inr ⟨[], rfl, rfl, (Nat.zero_add n) ▸ onward⟩
  | cons d ds ih =>
      rw [List.forall_mem_cons] at new
      rw [List.length_cons, Nat.add_right_comm] at growing onward
      have written : t.save d = (.ok (NumberedEntity.withId t.nextId d), (t.save d).2) := by
        rw [t.save_new new.1]
      refine (onward.save written).bind ?_
      rintro _ c₁ ⟨rfl, onward⟩
      refine (ih onward (growing.save new.1) new.2).bind ?_
      rintro _ c₂ ⟨rfl, onward⟩
      rw [Table.Growing.nextId_save new.1]
      exact .inr ⟨_, rfl, rfl, onward⟩

theorem passing_seed {new : List Domain} (onward : Onward limit (new.length + (n + 2)) .empty c)
    (few : new.length < 2147483647) (creates : ∀ d ∈ new, Table.creates d = true) :
    Passing (Overdue settings.ttl limit) c (seed (Table.cached Domain settings.options) new)
      fun saved c' => saved = Table.numbered 1 new ∧ Onward limit n (Table.empty.adding new) c' := by
  have growing : (Table.empty : Table Domain).Growing (new.length + 0) := .empty few
  refine (passing_saveAll onward growing creates).bind ?_
  rintro saved c₁ ⟨numbered, onward⟩
  refine passing_report ((onward.getMany (growing.adding creates).filed []).bind fun _ c₂ onward => ?_)
  refine (onward.count).bind fun _ c₃ onward => ?_
  exact .inr ⟨saved, rfl, numbered, onward⟩

theorem passing_readBack {first : Domain} {rest : List Domain} (onward : Onward limit (n + 2) t c)
    (filed : t.Filed) (row : t.get first.id = some first) :
    Passing (Overdue settings.ttl limit) c
      (readBack (Table.cached Domain settings.options) first (first :: rest)) fun _ c' => Onward limit n t c' := by
  refine (onward.get filed row).bind fun found c₁ ⟨there, onward⟩ => ?_
  cases found with
  | none => cases there
  | some found =>
      refine passing_report ((onward.getMany filed _).bind fun _ c₂ onward => ?_)
      exact .inr ⟨(), rfl, onward⟩

theorem passing_rename {first : Domain} (onward : Onward limit 1 t c) (sound : t.Sound spare)
    (row : t.get first.id = some first) :
    let renamed : Domain := { first with name := "www." ++ first.name }
    Passing (Overdue settings.ttl limit) c (rename (Table.cached Domain settings.options) first)
      fun d c' => d = renamed ∧ ¬ Overdue settings.ttl limit ∧ Working (t.put renamed) c' := by
  intro renamed
  have present : t.contains (Entity.id renamed) = true := by
    rw [Table.contains_eq, show Entity.id renamed = first.id from rfl, row]
    rfl
  have identity : Entity.hasIdentity renamed = true :=
    (LawfulNumbered.hasIdentity_iff renamed).2 (sound.positive row)
  have visible : Visible renamed.name := .append (by decide) _
  have written := Table.save_present visible.validate identity present
  have saved : Passing (Overdue settings.ttl limit) c
      (Walk.call ((Table.cached Domain settings.options).save renamed)) fun d c' =>
        d = renamed ∧ ¬ Overdue settings.ttl limit ∧ Working (t.put renamed) c' := by
    by_cases late : Overdue settings.ttl limit
    · obtain rfl := onward.keeper
      have now : c.next.link.memory.now = limit := (c.moment_succ 0).symm.trans onward.moment
      have overdue : c.next.link.memory.Late settings.options.ttl := Memory.late_some.2 (now ▸ late)
      have overflows := save_overflows (w := c.next) onward.never overdue written identity
      refine .inl ⟨late, ?_⟩
      show (Walk.call ((Table.cached Domain settings.options).save renamed) c).value = _
      simp only [Walk.call, overflows]
    · refine (onward.save written).mono id ?_
      rintro d c' ⟨same, onward⟩
      exact ⟨same, late, onward.toWorking⟩
  refine saved.bind ?_
  rintro _ c₁ ⟨rfl, early, working⟩
  have invalid : NumberedEntity.validate ({ renamed with name := "" } : Domain) =
    .error "domain name must not be empty" := rfl
  refine passing_report ((working.attempt (Table.save_invalid _ invalid)).bind fun answer c₂ working => ?_)
  cases answer with
  | ok _ => exact .inr ⟨renamed, rfl, rfl, early, working⟩
  | error error => exact .inr ⟨renamed, rfl, rfl, early, working⟩

theorem passing_finish {d : Domain} (working : Working t c) (present : t.contains d.id = true) :
    Passing late c (finish (Table.cached Domain settings.options) d) fun _ _ => True := by
  refine (working.delete (Table.delete_present (e := d) present)).bind fun _ c₁ working => ?_
  refine (working.contains d.id).bind fun _ c₂ working => passing_report ?_
  exact working.count.bind fun _ c₃ _ => .inr ⟨(), rfl, trivial⟩

theorem passing_walk {count : Nat} (some_rows : count ≠ 0) (few : count < 2147483647) (stamps : Nat → Stamp)
    (onward : Onward limit (count + 7) .empty c) :
    Passing (Overdue settings.ttl limit) c (walk (Table.cached Domain settings.options) count stamps)
      fun _ _ => ¬ Overdue settings.ttl limit := by
  obtain ⟨count, rfl⟩ := Nat.exists_eq_succ_of_ne_zero some_rows
  have length := length_sites (count + 1) stamps
  have few' : (sites (count + 1) stamps).length < 2147483647 := length.symm ▸ few
  have growing : (Table.empty : Table Domain).Growing ((sites (count + 1) stamps).length + 0) := .empty few'
  have sound := (growing.adding creates_sites).toSound
  have rows := growing.get_numbered creates_sites
  obtain ⟨rest, numbered⟩ := numbered_sites count stamps
  rw [show Table.empty.nextId = 1 from rfl, numbered] at rows
  have row := rows _ List.mem_cons_self
  refine (passing_readEmpty (n := count + 6) onward).bind fun _ c₁ onward => ?_
  refine Reaches.bind (P := fun new c' => new = sites (count + 1) stamps ∧ c' = c₁) ?_ ?_
  · have new := leads_newSites few stamps c₁
    exact .inr ⟨_, new.value, rfl, new.state⟩
  rintro _ _ ⟨rfl, rfl⟩
  refine (passing_seed (n := 3) (by rw [length]; exact onward) few' creates_sites).bind ?_
  rintro _ c₂ ⟨rfl, onward⟩
  rw [numbered]
  refine (passing_readBack onward sound.filed row).bind fun _ c₃ onward => ?_
  refine (passing_rename onward sound row).bind ?_
  rintro _ c₄ ⟨rfl, early, working⟩
  exact (passing_finish working (Table.contains_put_self _ _)).mono id fun _ _ _ => early

/-! ## A walk without rows -/

theorem passing_walk_rowless {P Q : Course → Prop} {R : Prop}
    (first : Passing late c (Walk.call ((Table.cached Domain settings.options).getMany [])) fun _ => P)
    (second : ∀ c, P c →
      Passing late c (Walk.call ((Table.cached Domain settings.options).getMany [])) fun _ => Q)
    (third : ∀ c, Q c →
      Passing late c (Walk.call ((Table.cached Domain settings.options).getMany [])) fun _ _ => R)
    (stamps : Nat → Stamp) :
    Passing late c (walk (Table.cached Domain settings.options) 0 stamps) fun _ _ => R := by
  have empty : Passing late c (readEmpty (Table.cached Domain settings.options)) fun _ => Q := by
    refine first.bind fun _ c₁ holds => passing_report ?_
    exact (second c₁ holds).bind fun _ _ holds => .inr ⟨(), rfl, holds⟩
  refine empty.bind fun _ c₂ holds => ?_
  have seeded : Passing late c₂ (seed (Table.cached Domain settings.options) []) fun new _ => new = [] ∧ R := by
    refine passing_report ((third c₂ holds).bind fun _ c₃ holds => ?_)
    exact .inr ⟨[], rfl, rfl, holds⟩
  refine seeded.bind ?_
  rintro _ c₄ ⟨rfl, holds⟩
  exact .inr ⟨(), rfl, holds⟩

theorem passing_again {mark : Nat} (allowed : settings.allowZeroCount = true)
    (marked : Marked settings.ttl mark c.world) :
    Passing (Overdue settings.ttl (remarked settings.ttl mark (c.moment 1))) c
      (Walk.call ((Table.cached Domain settings.options).getMany [])) fun _ c' =>
        Marked settings.ttl (remarked settings.ttl mark (c.moment 1)) c'.world ∧
          ∀ n, c'.moment n = c.moment (n + 1) := by
  rw [c.moment_succ]
  exact (passing_call (CachedRepository.steady_getMany _ []) ((marked.wait _).again allowed rfl)).mono id
    fun _ _ ⟨marked, _, moments⟩ => ⟨marked, moments⟩

theorem passing_walk_marked (allowed : settings.allowZeroCount = true) (rowless : Rowless c.world)
    (fresh : c.world.link.memory.store.entries = []) (stamps : Nat → Stamp) :
    let last := remarked settings.ttl (remarked settings.ttl (c.moment 1) (c.moment 2)) (c.moment 3)
    Passing (Overdue settings.ttl last) c (walk (Table.cached Domain settings.options) 0 stamps)
      fun _ _ => ¬ Overdue settings.ttl last := by
  intro last
  let second := remarked settings.ttl (c.moment 1) (c.moment 2)
  have sooner : second ≤ last := le_remarked _ _ _
  have soonest : c.moment 1 ≤ last := Nat.le_trans (le_remarked _ _ _) sooner
  have unmarked : c.next.link.memory.store.lookup? c.next.link.memory.now (Key.family Domain) = none := by
    rw [show c.next.link.memory.store = c.world.link.memory.store from rfl, Store.lookup?, Store.find?, fresh]
    rfl
  have marks : Passing (Overdue settings.ttl last) c
      (Walk.call ((Table.cached Domain settings.options).getMany [])) fun _ c' =>
        Marked settings.ttl (c.moment 1) c'.world ∧ ∀ n, c'.moment n = c.moment (n + 1) := by
    refine (passing_call (CachedRepository.steady_getMany _ [])
      ((rowless.wait _).marks allowed rfl unmarked)).mono (Overdue.mono · ?_) ?_
    · exact (c.moment_succ 0).symm.trans_le soonest
    · rintro _ c' ⟨marked, -, moments⟩
      exact ⟨c.moment_succ 0 ▸ marked, moments⟩
  refine passing_walk_rowless (Q := fun c' => Marked settings.ttl second c'.world ∧
    ∀ n, c'.moment n = c.moment (n + 2)) marks ?_ ?_ stamps
  · rintro c₁ ⟨marked, moments⟩
    have again := passing_again allowed marked
    rw [moments 1] at again
    refine again.mono (Overdue.mono · sooner) ?_
    rintro _ c₂ ⟨marked, moments'⟩
    exact ⟨marked, fun n => (moments' n).trans (moments (n + 1))⟩
  · rintro c₂ ⟨marked, moments⟩
    have again := passing_again allowed marked
    rw [moments 1] at again
    refine again.mono id ?_
    rintro _ c₃ ⟨marked, -⟩
    exact marked.fits

theorem passing_walk_markless (markless : settings.allowZeroCount = false) (rowless : Rowless c.world)
    (stamps : Nat → Stamp) :
    Passing False c (walk (Table.cached Domain settings.options) 0 stamps) fun _ _ => ¬ False := by
  have reads (c : Course) (rowless : Rowless c.world) :
      Passing False c (Walk.call ((Table.cached Domain settings.options).getMany []))
        fun _ c' => Rowless c'.world :=
    (passing_call (CachedRepository.steady_getMany _ []) ((rowless.wait _).reads markless)).mono id
      fun _ _ done => done.1
  exact passing_walk_rowless (reads c rowless) reads (fun c rowless => (reads c rowless).mono id
    fun _ _ _ => not_false) stamps

/-! ## All settings -/

def Circumstances.begin (c : Circumstances) (capacity : Nat) : Course :=
  ⟨⟨.ofMemory ⟨⟨capacity, []⟩, c.start⟩, .empty⟩, c.pauses⟩

theorem value_run (settings : Settings) (positive : 0 < settings.maxEntries) (count : Nat) (stamps : Nat → Stamp)
    (circumstances : Circumstances) :
    (run settings count stamps circumstances).1 =
      if circumstances.slots < settings.maxEntries * 8 / 7 then .error (.capacity .tooLarge)
      else (Step.run (ExceptT.run (walk (Table.cached Domain settings.options) count stamps))
        (circumstances.begin settings.maxEntries)).value := by
  rw [run]
  by_cases large : circumstances.slots < settings.maxEntries * 8 / 7
  · rw [Memory.create_too_large _ positive large, if_pos large]
  · rw [Memory.create_granted _ positive (Nat.not_lt.1 large), if_neg large]
    rfl

theorem value_walk (settings : Settings) (positive : 0 < settings.maxEntries) {count : Nat}
    (few : count < 2147483647) (stamps : Nat → Stamp) (circumstances : Circumstances) :
    (Step.run (ExceptT.run (walk (Table.cached Domain settings.options) count stamps))
        (circumstances.begin settings.maxEntries)).value =
      if Overdue settings.ttl (circumstances.lastWrite settings.ttl count) ∧
          (settings.allowZeroCount = true ∨ count ≠ 0) then .error (.overflow .deadline)
      else .ok () := by
  have rowless : Rowless (circumstances.begin settings.maxEntries).world :=
    ⟨rfl, rfl, Store.wellFormed_nil _, positive, nofun⟩
  by_cases none_new : count = 0
  · subst none_new
    rw [Circumstances.lastWrite, if_pos rfl]
    cases allowed : settings.allowZeroCount with
    | true => exact (passing_walk_marked allowed rowless rfl stamps).value_eq (and_iff_left (.inl rfl))
    | false => exact (passing_walk_markless allowed rowless stamps).value_eq (by simp)
  · rw [Circumstances.lastWrite, if_neg none_new]
    have onward : Onward (circumstances.moment (count + 7)) (count + 7) .empty
      (circumstances.begin settings.maxEntries) := ⟨⟨rfl, rfl⟩, rfl⟩
    exact (passing_walk none_new few stamps onward).value_eq (and_iff_left (.inr none_new))

/-- How the demonstration ends, with any settings that an environment can give, however large a table there is memory
for, whenever it starts and however long its calls wait. -/
theorem run_ends (env : Environment) {count : Nat} (few : count < 2147483647) (stamps : Nat → Stamp)
    (circumstances : Circumstances) :
    let settings := Settings.ofEnvironment env
    let last := circumstances.lastWrite settings.ttl count
    (run settings count stamps circumstances).1 =
      if circumstances.slots < settings.maxEntries * 8 / 7 then .error (.capacity .tooLarge)
      else if Memory.lastSecond < Span.seconds (last + settings.ttl) ∧
          (settings.allowZeroCount = true ∨ count ≠ 0) then .error (.overflow .deadline)
      else .ok () := by
  intro settings last
  have positive : 0 < settings.maxEntries := Nat.lt_of_lt_of_le Nat.zero_lt_one (Nat.le_max_left 1 _)
  rw [value_run settings positive, value_walk settings positive few]
  rfl

theorem longest_lifetime_ends :
    let env : Environment := fun name =>
      if name = "CACHE_TTL_SECONDS" then some (Bytes.ofText "+18446744073709551615")
      else if name = "CACHE_ALLOW_ZERO_COUNT" then some (Bytes.ofText "false") else none
    let env' : Environment := fun name =>
      if name = "CACHE_TTL_SECONDS" then some (Bytes.ofText "9223372036854689407") else none
    let stamps : Nat → Stamp := fun _ => ⟨.nil, .epoch⟩
    let circumstances : Circumstances := ⟨11428, 86400000000007, [0, 5]⟩
    let circumstances' : Circumstances := ⟨11428, 86400000000007, [0, 5, 0, 0, 0, 0, 0, 999999993]⟩
    0 < 2147483647 ∧ 1 < 2147483647 ∧
      (run (Settings.ofEnvironment env) 0 stamps circumstances).1 = .ok () ∧
      (run (Settings.ofEnvironment env) 1 stamps circumstances).1 = .error (.overflow .deadline) ∧
      (run (Settings.ofEnvironment env') 1 stamps circumstances).1 = .ok () ∧
      (run (Settings.ofEnvironment env') 1 stamps circumstances').1 = .error (.overflow .deadline) := by
  intro env env' stamps circumstances circumstances'
  have settings : Settings.ofEnvironment env = ⟨18446744073709551615, 10000, false, false⟩ := by decide +kernel
  have settings' : Settings.ofEnvironment env' = ⟨9223372036854689407, 10000, false, true⟩ := by decide +kernel
  have none : 0 < 2147483647 := by decide
  have one : 1 < 2147483647 := by decide
  have quiet := run_ends env none stamps circumstances
  have failing := run_ends env one stamps circumstances
  have early := run_ends env' one stamps circumstances
  have late := run_ends env' one stamps circumstances'
  rw [settings] at quiet failing
  rw [settings'] at early late
  rw [settings, settings']
  refine ⟨none, one, quiet.trans ?_, failing.trans ?_, early.trans ?_, late.trans ?_⟩
  all_goals decide

/-- The lifetime that is the largest machine word: it is too long whenever the demonstration is run, though it be
run without rows. -/
theorem longest_lifetime_fails :
    let env : Environment := fun name =>
      if name = "CACHE_TTL_SECONDS" then some (Bytes.ofText "18446744073709551615") else none
    let stamps : Nat → Stamp := fun _ => ⟨.nil, .epoch⟩
    0 < 2147483647 ∧ ∀ circumstances : Circumstances,
      (run (Settings.ofEnvironment env) 0 stamps circumstances).1 ≠ .ok () := by
  intro env stamps
  have settings : Settings.ofEnvironment env = ⟨18446744073709551615, 10000, false, true⟩ := by decide +kernel
  have none : 0 < 2147483647 := by decide
  have positive : 0 < 10000 := by decide
  rw [settings]
  refine ⟨none, fun circumstances ended => ?_⟩
  have value := value_walk ⟨18446744073709551615, 10000, false, true⟩ positive none stamps circumstances
  have overdue : Overdue (Settings.ttl ⟨18446744073709551615, 10000, false, true⟩) 0 := by decide
  rw [if_pos ⟨overdue.mono (Nat.zero_le _), .inl rfl⟩] at value
  rw [value_run _ positive] at ended
  split at ended
  · cases ended
  · rw [value] at ended
    cases ended

end Lookaside.Demo
