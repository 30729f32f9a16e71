import RemoteTree.Text.Basic

/-!
# The url of a location

The form in which a location is kept: it says how it is reached, by `https://` if nothing else
was given, and has no slash at its end.

* `Url.base`: that form of a url.
-/

namespace RemoteTree.Url

/-- The two ways of reaching a location. They are recognised in lower case only. -/
def isReachable (t : Text) : Bool :=
  (Text.ofString "https://").isPrefixOf t || (Text.ofString "http://").isPrefixOf t

/-- The url with a scheme in front and without slashes at its end. The slashes of the scheme go
as well if nothing follows them. -/
def base (t : Text) : Text :=
  Text.dropTrailing (· == '/') (if isReachable t then t else "https://" ++ t)

end RemoteTree.Url
