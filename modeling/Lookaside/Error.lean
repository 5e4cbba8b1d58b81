namespace Lookaside

inductive KeyError where
  | emptyId (typeName : String)
deriving DecidableEq, Repr

inductive CacheError where
  | connectionFailed (reason : String)
  | operationFailed (reason : String)
  | serialization (reason : String)
deriving DecidableEq, Repr

inductive CodecError where
  | encodingFailed (reason : String)
  | decodingFailed (reason : String)
deriving DecidableEq, Repr

inductive RepositoryError where
  | notFound (typeName id : String)
  | alreadyExists (typeName id : String)
  | connectionFailed (reason : String)
  | queryFailed (reason : String)
  | invalidData (reason : String)
deriving DecidableEq, Repr

inductive PolicyError where
  /-- An argument or the configuration is unusable; nothing has been done. -/
  | invalidArgument (reason : String)
  | repository (error : RepositoryError)
deriving DecidableEq, Repr

namespace KeyError

def message : KeyError → String
  | emptyId typeName => typeName ++ " id is empty and cannot form a cache key"

def toPolicy (e : KeyError) : PolicyError := .invalidArgument e.message

end KeyError

def CacheError.message : CacheError → String
  | connectionFailed reason => "Cache connection failed: " ++ reason
  | operationFailed reason => "Cache operation failed: " ++ reason
  | serialization reason => "Serialization error: " ++ reason

def CodecError.message : CodecError → String
  | encodingFailed reason => "Failed to serialize: " ++ reason
  | decodingFailed reason => "Failed to deserialize: " ++ reason

def RepositoryError.message : RepositoryError → String
  | notFound typeName id => typeName ++ " not found: " ++ id
  | alreadyExists typeName id => typeName ++ " already exists: " ++ id
  | connectionFailed reason => "Connection failed: " ++ reason
  | queryFailed reason => "Query failed: " ++ reason
  | invalidData reason => "Invalid data: " ++ reason

namespace PolicyError

def message : PolicyError → String
  | invalidArgument reason => "Invalid argument: " ++ reason
  | repository error => error.message

/-- What the caller of a cached repository sees. -/
def toRepository : PolicyError → RepositoryError
  | invalidArgument reason => .invalidData reason
  | repository error => error

@[simp] theorem toRepository_repository (e : RepositoryError) : (repository e).toRepository = e := rfl

theorem mapError_repository {α : Type} (x : Except RepositoryError α) :
    (x.mapError repository).mapError toRepository = x := by
  cases x <;> rfl

end PolicyError

end Lookaside
