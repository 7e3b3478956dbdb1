import Countersign.Net.Url
import Countersign.Node.Error

/-!
# Access to a node

Where a node is, and as whom to log in. The place is an address over HTTP, to which a scheme is added
unless it has one. Only the part between the scheme and the path, without any login in front of it, is
looked up.
-/

set_option autoImplicit false

namespace Countersign

structure NodeAccess where
  host : String
  user : String
  pass : String
  deriving DecidableEq, Repr

namespace NodeAccess

def hasScheme (host : String) : Bool := host.startsWith "http://" || host.startsWith "https://"

def urlOf (host : String) : String := if hasScheme host then host else "http://" ++ host

def url (a : NodeAccess) : String := urlOf a.host

def authority (a : NodeAccess) : String :=
  let place := ((Url.afterScheme? a.url.toList).getD []).takeWhile (· != '/')
  String.ofList (if place.contains '@' then (place.dropWhile (· != '@')).drop 1 else place)

end NodeAccess

def NodeError.unresolved (reason : String) : NodeError := .rpc (.transport (.unreachable reason))

end Countersign
