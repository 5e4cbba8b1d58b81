import Lookaside.Environment
import Lookaside.Policy.Options

namespace Lookaside

structure Settings where
  ttlSeconds : Nat
  maxEntries : Nat
  validateCount : Bool
  allowZeroCount : Bool
deriving DecidableEq, Repr

namespace Settings

/-- The settings of an environment. A cache has at least one entry. -/
def ofEnvironment (env : Environment) : Settings where
  ttlSeconds := (env.word? "CACHE_TTL_SECONDS").getD 300
  maxEntries := max 1 ((env.word? "CACHE_MAX_ENTRIES").getD 10000)
  validateCount := (env.flag? "CACHE_VALIDATE_ALL_COUNT").getD false
  allowZeroCount := (env.flag? "CACHE_ALLOW_ZERO_COUNT").getD true

def ttl (s : Settings) : Span := Span.ofSeconds s.ttlSeconds

def options (s : Settings) : Policy.Options :=
  ((Policy.Options.new.withValidateCount s.validateCount).withAllowZeroCount
    s.allowZeroCount).withTtl s.ttl

end Settings

end Lookaside
