import RoundSync.Safdav.ProviderPaths
import RoundSync.Tree.PathTree

/-!
# Document trees

What a documents provider holds below a granted tree, and the answers of the
WebDAV server.
-/

namespace RoundSync.Safdav

open RoundSync.Text RoundSync.Tree

/-- A directory, or a file with its bytes. -/
inductive Document where
  | directory
  | file (content : List UInt8)
  deriving DecidableEq

/-- The documents by their names from the granted one on. -/
abbrev DocumentTree := PathTree JavaString Document (· = .directory)

/-- A granted directory that is empty. -/
def emptyTree : DocumentTree where
  table := AList.singleton [] .directory
  root := ⟨.directory, rfl, rfl⟩
  closed := by
    intro place name document found
    have member := AList.mem_lookup_iff.mp found
    simp at member

theorem emptyTree_isInner : emptyTree.IsInner [] :=
  emptyTree.root

inductive Response where
  | noContent
  | created
  | badRequest
  | forbidden
  | notFound
  | notAllowed
  | preconditionFailed
  | internalError
  deriving DecidableEq

end RoundSync.Safdav
