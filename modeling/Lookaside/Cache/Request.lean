import Lookaside.Error
import Lookaside.Memory

namespace Lookaside.Cache

inductive Method where
  | get
  | set
  | delete
  | scan
deriving DecidableEq, Repr

inductive Request where
  | get (key : String)
  | set (key : String) (value : Bytes) (ttl : Option Span)
  | delete (key : String)
  | scan (start : String)
deriving DecidableEq, Repr

namespace Request

def method : Request → Method
  | get _ => .get
  | set .. => .set
  | delete _ => .delete
  | scan _ => .scan

def key : Request → String
  | get key => key
  | set key .. => key
  | delete key => key
  | scan start => start

end Request

inductive Exchange where
  | get (key : String) (reply : Except CacheError (Option Bytes))
  | set (key : String) (value : Bytes) (ttl : Option Span) (reply : Except CacheError Unit)
  | delete (key : String) (reply : Except CacheError Unit)
  | scan (start : String) (reply : Except CacheError (List (String × Bytes)))

def Exchange.request : Exchange → Request
  | get key _ => .get key
  | set key value ttl _ => .set key value ttl
  | delete key _ => .delete key
  | scan start _ => .scan start

/-- Which requests fail, and how, given how many went before. -/
abbrev Faults := Nat → Request → Option CacheError

structure FaultRule where
  method : Method
  key? : Option String
  error : CacheError
deriving DecidableEq, Repr

def FaultRule.covers (rule : FaultRule) (r : Request) : Bool :=
  rule.method = r.method && rule.key?.all (· = r.key)

namespace Faults

def never : Faults := fun _ _ => none

def ofRules (rules : List FaultRule) : Faults := fun _ r =>
  (rules.find? (·.covers r)).map (·.error)

end Faults

end Lookaside.Cache
