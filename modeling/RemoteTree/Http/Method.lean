/-!
# Methods

* `Method`: what a request asks for.
-/

namespace RemoteTree

/-- What a request asks for. -/
inductive Method where
  | get | post | put | patch | delete
deriving DecidableEq

/-- The word for a method in a request. -/
def Method.name : Method → String
  | .get => "GET"
  | .post => "POST"
  | .put => "PUT"
  | .patch => "PATCH"
  | .delete => "DELETE"

end RemoteTree
