/-
  Locations — which texts say where a key-value server is.

  A location has a scheme.  With `redis` a host follows, perhaps with a user before it and a port
  after it, and then perhaps the number of a database; with `redis+unix` or `unix` an absolute path
  follows.  The scheme `rediss` asks for encryption, which this library does not offer.
-/
import SessionCluster.Text.Fields
import SessionCluster.Text.Digits

namespace SessionCluster.KeyValue

/-- What a scheme is made of after its first letter. -/
def isSchemeChar (c : Char) : Bool :=
  c.isAlpha || Text.isDigit c || c == '+' || c == '-' || c == '.'

/-- The scheme of a location, in lower case, and what follows its colon. -/
def scheme? (cs : List Char) : Option (String × List Char) :=
  match Text.splitFirst? ':' cs with
  | some (c :: name, rest) =>
    if c.isAlpha && name.all isSchemeChar then some (Text.lower (String.ofList (c :: name)), rest)
    else none
  | _ => none

/-- Whether a character may not stand in a host. -/
def isForbidden (c : Char) : Bool :=
  "\x00\t\n\r #/:<>?@[\\]^|".toList.contains c

/-- What follows a user. -/
def withoutUser (cs : List Char) : List Char :=
  match Text.splitLast? '@' cs with
  | some (_, host) => host
  | none => cs

/-- Whether a text is a port, or none. -/
def isPort (cs : List Char) : Bool :=
  cs.all Text.isDigit && Text.ofDigits 0 cs < 65536

/-- Whether a text is a host that may have a port. -/
def isHostAndPort (cs : List Char) : Bool :=
  match cs with
  | '[' :: rest =>
    match Text.splitFirst? ']' rest with
    | some (inside, []) => !inside.isEmpty
    | some (inside, ':' :: port) => !inside.isEmpty && isPort port
    | _ => false
  | _ =>
    match Text.splitFirst? ':' cs with
    | some (host, port) => !host.isEmpty && !host.any isForbidden && isPort port
    | none => !cs.isEmpty && !cs.any isForbidden

/-- Whether a path is empty but for slashes, or names a database by its number. -/
def isDatabase (cs : List Char) : Bool :=
  let slash (c : Char) := c == '/'
  let name := ((cs.dropWhile slash).reverse.dropWhile slash).reverse
  let digits := match name with
    | '-' :: ds => ds
    | '+' :: ds => ds
    | ds => ds
  name.isEmpty || (!digits.isEmpty && digits.all Text.isDigit &&
    Text.ofDigits 0 digits < 9223372036854775808)

/-- What comes before the query of a location. -/
def withoutQuery (cs : List Char) : List Char :=
  cs.takeWhile fun c => c != '?' && c != '#'

/-- Whether a text says where a server is that can be connected to. -/
def isLocation (s : String) : Bool :=
  match scheme? s.toList with
  | some ("redis", '/' :: '/' :: rest) =>
    let rest := withoutQuery rest
    isHostAndPort (withoutUser (rest.takeWhile (· != '/'))) && isDatabase (rest.dropWhile (· != '/'))
  | some (scheme, rest) =>
    (scheme == "redis+unix" || scheme == "unix") &&
      match withoutQuery rest with
      | '/' :: '/' :: rest => rest.head? == some '/'
      | '/' :: _ => true
      | _ => false
  | none => false

end SessionCluster.KeyValue
