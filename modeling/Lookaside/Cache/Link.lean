import Lookaside.Cache.Request

namespace Lookaside.Cache

/-- A cache in memory behind a faulty connection. -/
structure Link where
  memory : Memory
  faults : Faults
  requests : Nat

namespace Link

def ofMemory (memory : Memory) : Link := ⟨memory, .never, 0⟩

def fault? (l : Link) (r : Request) : Option CacheError := l.faults l.requests r

def after (l : Link) (memory : Memory) : Link := { l with memory, requests := l.requests + 1 }

def get (l : Link) (key : String) : Except CacheError (Option Bytes) × Link :=
  match l.fault? (.get key) with
  | some e => (.error e, l.after l.memory)
  | none => (.ok (l.memory.get key).1, l.after (l.memory.get key).2)

def scan (l : Link) (start : String) : Except CacheError (List (String × Bytes)) × Link :=
  match l.fault? (.scan start) with
  | some e => (.error e, l.after l.memory)
  | none => (.ok (l.memory.scan start), l.after l.memory)

def delete (l : Link) (key : String) : Except CacheError Unit × Link :=
  match l.fault? (.delete key) with
  | some e => (.error e, l.after l.memory)
  | none => (.ok (), l.after (l.memory.delete key))

def set (l : Link) (key : String) (value : Bytes) (ttl : Option Span) :
    Except Overflow (Except CacheError Unit) × Link :=
  match l.fault? (.set key value ttl) with
  | some e => (.ok (.error e), l.after l.memory)
  | none =>
    match l.memory.set key value ttl with
    | .error overflow => (.error overflow, l.after l.memory)
    | .ok memory => (.ok (.ok ()), l.after memory)

end Link

end Lookaside.Cache
