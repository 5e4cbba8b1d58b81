import Lookaside.Memory

namespace Lookaside.Policy

structure Options where
  /-- Trust a cached set of all entities only if its size is the count that the repository gives. -/
  validateCount : Bool
  allowZeroCount : Bool
  ttl : Option Span
deriving DecidableEq, Repr

namespace Options

def new : Options := ⟨false, false, none⟩

def withValidateCount (enabled : Bool) (o : Options) : Options := { o with validateCount := enabled }

def withAllowZeroCount (enabled : Bool) (o : Options) : Options :=
  { o with allowZeroCount := enabled }

def withTtl (ttl : Span) (o : Options) : Options := { o with ttl := some ttl }

end Options

end Lookaside.Policy
