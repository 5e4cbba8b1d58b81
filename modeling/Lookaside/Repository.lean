import Lookaside.World

namespace Lookaside

structure Repository (ρ E I : Type) where
  get : I → Call ρ (Option E)
  /-- The entities with the given ids, or all of them if there are no ids. -/
  getMany : List I → Call ρ (List E)
  contains : I → Call ρ Bool
  save : E → Call ρ E
  delete : E → Call ρ Unit
  count : Call ρ Nat

namespace Repository

structure Replies (E : Type) where
  get : Except RepositoryError (Option E)
  getMany : Except RepositoryError (List E)
  contains : Except RepositoryError Bool
  save : Except RepositoryError E
  delete : Except RepositoryError Unit
  count : Except RepositoryError Nat

def Replies.failing (E : Type) (error : RepositoryError) : Replies E :=
  ⟨.error error, .error error, .error error, .error error, .error error, .error error⟩

def scripted (E I : Type) : Repository (Replies E) E I where
  get _ replies := (replies.get, replies)
  getMany _ replies := (replies.getMany, replies)
  contains _ replies := (replies.contains, replies)
  save _ replies := (replies.save, replies)
  delete _ replies := (replies.delete, replies)
  count replies := (replies.count, replies)

end Repository

end Lookaside
