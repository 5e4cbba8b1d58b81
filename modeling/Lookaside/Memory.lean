import Lookaside.Store

namespace Lookaside

abbrev Span := Nat

namespace Span

def ofSeconds (n : Nat) : Span := n * 1000000000

def ofMilliseconds (n : Nat) : Span := n * 1000000

def seconds (span : Span) : Nat := span / 1000000000

def nanos (span : Span) : Nat := span % 1000000000

end Span

inductive Overflow where
  | deadline
deriving DecidableEq, Repr

structure Memory where
  store : Store
  now : Nat
deriving DecidableEq, Repr

namespace Memory

/-- The clock counts whole seconds in a signed word of 64 bits. -/
def lastSecond : Nat := 9223372036854775807

/-- An empty cache, given what the clock shows and how many slots there is room for. -/
def create (capacity : Nat) (start : Nat := Span.ofSeconds 1) (slots : Nat := Store.maxSlots) :
    Except Store.CapacityError Memory :=
  (Store.create capacity slots).map fun store => ⟨store, start⟩

def deadline (m : Memory) : Option Span → Except Overflow (Option Nat)
  | none => .ok none
  | some ttl =>
    if lastSecond < Span.seconds (m.now + ttl) then .error .deadline else .ok (some (m.now + ttl))

def set (m : Memory) (key : String) (value : Bytes) (ttl : Option Span) : Except Overflow Memory :=
  (m.deadline ttl).map fun deadline => { m with store := m.store.push ⟨key, value, deadline⟩ }

def get (m : Memory) (key : String) : Option Bytes × Memory :=
  (m.store.lookup? m.now key, { m with store := m.store.touch m.now key })

def delete (m : Memory) (key : String) : Memory :=
  { m with store := m.store.erase key }

def scan (m : Memory) (start : String) : List (String × Bytes) :=
  m.store.scan m.now start

def wait (m : Memory) (span : Span) : Memory :=
  { m with now := m.now + span }

end Memory

end Lookaside
