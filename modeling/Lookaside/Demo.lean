import Lookaside.CachedRepository
import Lookaside.Demo.Sites
import Lookaside.Settings
import Lookaside.Table

/-!
# The demonstration

A walk through a cached table of domains that makes every call and reports what it finds: it reads the
empty store twice, saves some domains, reads them in several ways, renames the first, tries to blank
its name, and deletes it.
-/

namespace Lookaside.Demo

inductive Failure where
  | capacity (error : Store.CapacityError)
  | overflow (error : Overflow)
  | repository (error : RepositoryError)
  | tooManySites
  | domainMissing
deriving DecidableEq, Repr

/-- A demonstration on its way, with the time that passes before each of the calls to come. -/
structure Course where
  world : World (Table Domain)
  pauses : List Span

def Course.next (c : Course) : World (Table Domain) :=
  c.world.wait (c.pauses.headD 0)

def Course.after (c : Course) (w : World (Table Domain)) : Course :=
  ⟨w, c.pauses.tail⟩

abbrev Walk := ExceptT Failure (Step Course (Note Int32))

abbrev Domains := CachedRepository (Table Domain) Domain Int32

namespace Walk

def call {α : Type} (x : Effect (Table Domain) Int32 (Except RepositoryError α)) : Walk α := fun c =>
  let r := x.run.run c.next
  match r.value with
  | .ok (.ok a) => ⟨.ok a, c.after r.state, r.notes⟩
  | .ok (.error e) => ⟨.error (.repository e), c.after r.state, r.notes⟩
  | .error overflow => ⟨.error (.overflow overflow), c.after r.state, r.notes⟩

def attempt {α : Type} (x : Effect (Table Domain) Int32 (Except RepositoryError α)) :
    Walk (Except RepositoryError α) := fun c =>
  let r := x.run.run c.next
  ⟨r.value.mapError .overflow, c.after r.state, r.notes⟩

def report (m : Log.Milestone) : Walk Unit :=
  ExceptT.lift (Step.note (.event (.milestone m)))

def cachedEntries : Walk Nat :=
  ExceptT.lift (Step.read fun c => c.world.link.memory.store.count)

end Walk

def saveAll (domains : Domains) : List Domain → Walk (List Domain)
  | [] => return []
  | d :: ds => do
    let saved ← Walk.call (domains.save d)
    return saved :: (← saveAll domains ds)

def newSites (count : Nat) (stamps : Nat → Stamp) : Walk (List Domain) :=
  match sites? count stamps with
  | some new => return new
  | none => throw .tooManySites

def readEmpty (domains : Domains) : Walk Unit := do
  let first ← Walk.call (domains.getMany [])
  Walk.report (.readEmpty first.length)
  let second ← Walk.call (domains.getMany [])
  Walk.report (.readEmptyAgain second.length (← Walk.cachedEntries))

def seed (domains : Domains) (new : List Domain) : Walk (List Domain) := do
  let saved ← saveAll domains new
  Walk.report (.seeded saved.length (saved.filter (·.isWildcard)).length)
  let all ← Walk.call (domains.getMany [])
  Walk.report (.readAll all.length (← Walk.call domains.count))
  return saved

def readBack (domains : Domains) (first : Domain) (saved : List Domain) : Walk Unit := do
  match ← Walk.call (domains.get first.id) with
  | none => throw .domainMissing
  | some found =>
    Walk.report (.readById found.id found.name)
    let several ← Walk.call (domains.getMany (saved.map (·.id)))
    Walk.report (.readByIds saved.length several.length)

def rename (domains : Domains) (first : Domain) : Walk Domain := do
  let renamed ← Walk.call (domains.save { first with name := "www." ++ first.name })
  Walk.report (.renamed renamed.id renamed.name)
  match ← Walk.attempt (domains.save { renamed with name := "" }) with
  | .ok _ => return renamed
  | .error error =>
    Walk.report (.rejected renamed.id error.message)
    return renamed

def finish (domains : Domains) (d : Domain) : Walk Unit := do
  Walk.call (domains.delete d)
  Walk.report (.deleted d.id (← Walk.call (domains.contains d.id)))
  let total ← Walk.call domains.count
  Walk.report (.finished total (← Walk.cachedEntries))

def walk (domains : Domains) (count : Nat) (stamps : Nat → Stamp) : Walk Unit := do
  readEmpty domains
  match ← seed domains (← newSites count stamps) with
  | [] => Walk.report .nothingSeeded
  | first :: rest =>
    readBack domains first (first :: rest)
    finish domains (← rename domains first)

/-- What a demonstration does not decide itself. There is memory for everything but, maybe, the table of the
cache. -/
structure Circumstances where
  /-- The slots of the largest table that there is memory for. -/
  slots : Nat := Store.maxSlots
  start : Nat := Span.ofSeconds 1
  /-- The time that passes before each call; after the last of these no more time passes. -/
  pauses : List Span := []

/-- The demonstration with some number of new domains: how it ends, and what it reports. -/
def run (settings : Settings) (count : Nat) (stamps : Nat → Stamp) (c : Circumstances := {}) :
    Except Failure Unit × List Log.Event :=
  let start : Log.Event := .milestone
    (.starting settings.ttlSeconds settings.maxEntries settings.validateCount
      settings.allowZeroCount)
  match Memory.create settings.maxEntries c.start c.slots with
  | .error error => (.error (.capacity error), [start])
  | .ok memory =>
    let walk := walk ⟨Table.repository, settings.options⟩ count stamps
    let r := walk.run.run ⟨⟨.ofMemory memory, .empty⟩, c.pauses⟩
    (r.value, start :: r.notes.filterMap Note.event?)

end Lookaside.Demo
