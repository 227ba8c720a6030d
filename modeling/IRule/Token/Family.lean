/-!
# Command families

Commands of the `HTTP::`, `SSL::`, `LB::` and `IP::` namespaces, and the
splitting of a name at its first `::`.
-/

namespace IRule

/-- Split a name at its first `::`. -/
def splitNamespace? : List Char → Option (List Char × List Char)
  | [] => none
  | ':' :: ':' :: rest => some ([], rest)
  | char :: rest => (splitNamespace? rest).map fun (space, name) => (char :: space, name)

/-- A namespace whose commands have tokens and tree nodes of their own. -/
inductive Family where
  | http
  | ssl
  | lb
  | ip
deriving DecidableEq, Repr, Inhabited

namespace Family

/-- Every family, in order of recognition. -/
def all : List Family := [.http, .ssl, .lb, .ip]

/-- Name of the namespace. -/
def tag : Family → String
  | .http => "HTTP"
  | .ssl => "SSL"
  | .lb => "LB"
  | .ip => "IP"

/-- What the name of a command in the family starts with. -/
def marker (family : Family) : String :=
  family.tag ++ "::"

/-- Short names of the commands that have a token kind of their own. -/
def commands : Family → List String
  | .http =>
    ["uri", "path", "query", "host", "method", "header", "cookie", "respond", "redirect", "status",
      "version", "payload", "collect", "release", "close", "request", "username", "password",
      "is_keepalive", "is_redirect"]
  | .ssl =>
    ["cert", "cipher", "cipher_bits", "sessionid", "verify_result", "mode", "renegotiate",
      "disable", "enable", "extensions", "protocol"]
  | .lb =>
    ["select", "server", "mode", "reselect", "detach", "status", "snat", "down", "up", "queue"]
  | .ip =>
    ["client_addr", "server_addr", "remote_addr", "local_addr", "addr", "protocol", "tos", "ttl",
      "hops", "idle_timeout", "stats", "version"]

/-- Family with the given namespace name. -/
def ofTag? (tag : String) : Option Family :=
  all.find? fun family => family.tag == tag

/-- Family of a command, recognised by what its name starts with alone. -/
def ofName? (name : String) : Option Family :=
  all.find? fun family =>
    family.marker.toList.isPrefixOf name.toList && family.marker != name

/-- The command name without the namespace of its family. -/
def shortName (family : Family) (command : String) : String :=
  if family.marker.toList.isPrefixOf command.toList then
    String.ofList (command.toList.drop family.marker.length)
  else
    command

end Family

end IRule
