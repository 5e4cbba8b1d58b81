import Lookaside.Bytes

/-!
# A bounded store that forgets the least recently used

Entries are kept most recently touched first. Writing an entry and finding one touch it; a scan does
not. A full store drops its last entry when a new key comes in. An entry with a deadline is expired
once the time is past it: it is no longer found, but takes room until a lookup removes it. Times are
counted in nanoseconds.
-/

namespace Lookaside

structure Entry where
  key : String
  value : Bytes
  /-- The last moment at which the value may be found. -/
  deadline : Option Nat
deriving DecidableEq, Repr

def Entry.isExpired (now : Nat) (e : Entry) : Bool :=
  match e.deadline with
  | none => false
  | some deadline => deadline < now

structure Store where
  capacity : Nat
  /-- The entries, most recently touched first. -/
  entries : List Entry
deriving DecidableEq, Repr

namespace Store

inductive CapacityError where
  | zero
  | tooLarge
deriving DecidableEq, Repr

def maxSlots : Nat := 288230376151711744

/-- An empty store, given how many slots there is room for. A table has eight of them for every seven
entries. -/
def create (capacity : Nat) (slots : Nat := maxSlots) : Except CapacityError Store :=
  if capacity = 0 then .error .zero
  else if slots < capacity * 8 / 7 then .error .tooLarge
  else .ok ⟨capacity, []⟩

def find? (s : Store) (key : String) : Option Entry :=
  s.entries.find? (·.key = key)

def lookup? (s : Store) (now : Nat) (key : String) : Option Bytes :=
  ((s.find? key).filter fun e => !e.isExpired now).map (·.value)

def erase (s : Store) (key : String) : Store :=
  { s with entries := s.entries.filter (·.key ≠ key) }

/-- The store with an entry in front, in place of any other under its key. -/
def push (s : Store) (e : Entry) : Store :=
  { s with entries := (e :: s.entries.filter (·.key ≠ e.key)).take s.capacity }

/-- The store after a lookup: what was found is touched, what had expired is removed. -/
def touch (s : Store) (now : Nat) (key : String) : Store :=
  match s.find? key with
  | none => s
  | some e => if e.isExpired now then s.erase key else s.push e

/-- The entries that are not expired and whose keys start with a text, in the order of their keys. -/
def scan (s : Store) (now : Nat) (start : String) : List (String × Bytes) :=
  ((s.entries.filter fun e => start.toList.isPrefixOf e.key.toList && !e.isExpired now).map
    fun e => (e.key, e.value)).mergeSort fun a b => decide (a.1 ≤ b.1)

def count (s : Store) : Nat := s.entries.length

end Store

end Lookaside
