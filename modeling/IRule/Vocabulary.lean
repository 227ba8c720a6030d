import IRule.Token.Family

/-!
# Vocabulary

Words with a fixed meaning in the language: events, headers, commands and
their options.
-/

namespace IRule.Vocabulary

/-- Events a handler can be attached to. -/
def events : List String := [
  "HTTP_REQUEST", "HTTP_RESPONSE", "LB_SELECTED", "CLIENT_ACCEPTED", "SERVER_CONNECTED",
  "CLIENTSSL_HANDSHAKE", "SERVERSSL_HANDSHAKE", "TCP_REQUEST", "TCP_RESPONSE", "USER_REQUEST",
  "USER_RESPONSE", "RULE_INIT", "DNS_REQUEST", "DNS_RESPONSE", "SSL_CLIENTHELLO",
  "SSL_SERVERHELLO"]

/-- Words of flow control that never name a variable. -/
def reservedKeywords : List String := [
  "when", "if", "else", "elseif", "then", "switch", "case", "default", "set", "foreach", "for",
  "while", "return", "break", "continue", "proc"]

/-- Headers known by name, in small letters. -/
def commonHeaders : List String := [
  "accept", "accept-charset", "accept-encoding", "accept-language", "accept-ranges", "age",
  "allow", "authorization", "cache-control", "connection", "content-disposition",
  "content-encoding", "content-language", "content-length", "content-location", "content-range",
  "content-security-policy", "content-type", "cookie", "date", "etag", "expect", "expires",
  "forwarded", "from", "host", "if-match", "if-modified-since", "if-none-match", "if-range",
  "if-unmodified-since", "keep-alive", "last-modified", "link", "location", "max-forwards",
  "origin", "pragma", "proxy-authenticate", "proxy-authorization", "range", "referer",
  "retry-after", "server", "set-cookie", "strict-transport-security", "te", "trailer",
  "transfer-encoding", "upgrade", "user-agent", "vary", "via", "warning", "www-authenticate"]

/-- Commands accepted by name. -/
def commonCommands : List String := [
  "after", "append", "array", "binary", "break", "catch", "clock", "concat", "continue", "error",
  "eval", "expr", "for", "format", "global", "incr", "info", "join", "lappend", "lindex",
  "linsert", "list", "llength", "lrange", "lreplace", "lsearch", "lsort", "proc", "puts",
  "regexp", "scan", "split", "subst", "unset", "upvar", "uplevel", "while", "active_members",
  "active_nodes", "b64decode", "b64encode", "call", "clientside", "crc32", "discard", "domain",
  "drop", "event", "findclass", "findstr", "forward", "getfield", "htonl", "htons",
  "ip_protocol", "lasthop", "log", "matchclass", "md5", "members", "nexthop", "ntohl", "ntohs",
  "peer", "persist", "priority", "rateclass", "recv", "reject", "send", "serverside", "session",
  "sha1", "sha256", "sha384", "sha512", "snat", "snatpool", "substr", "table", "timing", "use",
  "virtual", "whereis", "ACCESS::session", "ACCESS::policy", "AES::decrypt", "AES::encrypt",
  "AES::key", "CRYPTO::decrypt", "CRYPTO::encrypt", "CRYPTO::hash", "CRYPTO::sign",
  "CRYPTO::verify", "DNS::answer", "DNS::question", "DNS::rdata", "DNS::return", "HSL::open",
  "HSL::send", "RESOLV::lookup", "STATS::get", "STATS::incr", "STATS::set", "UDP::payload",
  "UDP::respond", "URI::basename", "URI::compare", "URI::decode", "URI::encode", "URI::host",
  "URI::path", "URI::port", "URI::protocol", "URI::query", "X509::cert_fields",
  "X509::extensions", "X509::issuer", "X509::subject", "X509::whole"]

/-- Namespaces whose commands are all accepted. -/
def knownNamespaces : List String := [
  "HTTP", "TCP", "SSL", "LB"]

/-- Operations of `string` with the least number of arguments each takes. -/
def stringOperations : List (String × Nat) := [
  ("compare", 2), ("contains", 2), ("equals", 2), ("findstr", 2), ("index", 2), ("last", 2),
  ("length", 1), ("map", 2), ("match", 2), ("range", 3), ("repeat", 2), ("replace", 3),
  ("reverse", 1), ("substring", 2), ("tolower", 1), ("toupper", 1), ("trim", 1)]

/-- Flags of `regsub`, without the dash. -/
def regsubFlags : List String := [
  "all", "nocase"]

/-- Subcommands of `class`. -/
def classSubcommands : List String := [
  "anymore", "donesearch", "element", "exists", "get", "lookup", "match", "names", "nextelement",
  "search", "size", "startsearch", "type"]

/-- Options of `class match` and `class search`. -/
def classOptions : List String := [
  "-all", "-index", "-name", "-value", "-element", "--"]

/-- Comparisons of `class match`. -/
def classOperators : List String := [
  "equals", "starts_with", "ends_with", "contains"]

/-- Subcommands of `HTTP::header`; any other first argument is a header name. -/
def headerSubcommands : List String := [
  "at", "count", "exists", "insert", "insert_modssl_fields", "is_keepalive", "is_redirect",
  "lws", "names", "remove", "replace", "sanitize", "value", "values"]

/-- Whether a handler can be attached to the event. -/
def isEvent (name : String) : Bool :=
  events.contains name

/-- Whether the word is one of flow control. -/
def isReservedKeyword (name : String) : Bool :=
  reservedKeywords.contains name

/-- Whether the header is known by name, in capital or small letters. -/
def isCommonHeader (name : String) : Bool :=
  commonHeaders.contains (name.map Char.toLower)

/-- Whether the command is accepted by name. -/
def isCommonCommand (name : String) : Bool :=
  commonCommands.contains name

/-- Log facilities `local0.` to `local7.`, with or without a level. -/
def isLogFacility (name : String) : Bool :=
  match name.toList with
  | 'l' :: 'o' :: 'c' :: 'a' :: 'l' :: digit :: '.' :: _ =>
    decide ('0' ≤ digit) && decide (digit ≤ '7')
  | _ => false

/-- Whether the name belongs to a namespace whose commands are all accepted. -/
def hasKnownNamespace (name : String) : Bool :=
  match splitNamespace? name.toList with
  | some (space, command) => !command.isEmpty && knownNamespaces.contains (String.ofList space)
  | none => false

/-- Least number of arguments of an operation of `string`. -/
def stringArity? (operation : String) : Option Nat :=
  stringOperations.lookup operation

/-- Whether `regsub` has the flag. -/
def isRegsubFlag (flag : String) : Bool :=
  regsubFlags.contains flag

/-- Whether `class` has the subcommand. -/
def isClassSubcommand (name : String) : Bool :=
  classSubcommands.contains name

/-- Whether `class match` has the comparison. -/
def isClassOperator (operator : String) : Bool :=
  classOperators.contains operator

/-- Whether `HTTP::header` has the subcommand. -/
def isHeaderSubcommand (name : String) : Bool :=
  headerSubcommands.contains name

end IRule.Vocabulary
