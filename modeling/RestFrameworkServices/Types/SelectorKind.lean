/-!
# The kind of a selector

`SelectorKind`, read where a mutation is answered and where its output is described.
-/

namespace RestFrameworkServices

/-- What a selector gives: one row, or a list of them. -/
inductive SelectorKind where
  | retrieve
  | list
  deriving DecidableEq

end RestFrameworkServices
