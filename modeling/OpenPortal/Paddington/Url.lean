import OpenPortal.Rust

/-!
# Websocket URLs

`create_websocket_url` reads a URL with the `url` crate and prints the address a
peer is reached at: the scheme mapped to `ws` or `wss`, the host, the port and the
path.  The crate is not part of the repository.  The model takes its parser as an
argument and reads from a parsed URL the four accessors the function calls
(`Url`).

The crate follows the WHATWG URL standard, under which `Url::port` is `None` when
the port is the default of the scheme.  The function maps every scheme it does not
know to `wss`, whose default port is 443, and falls back to port 8080 when there
is no port.  So `ftp://example.com:443/` prints as `wss://example.com:443/`, which
reads back with no port and prints as `wss://example.com:8080/`.

`Url.parse` is the crate's parser on the URLs `scheme://host[:port][path]` of the
five special schemes that have a default port, with a host of ASCII letters,
digits, dots and hyphens whose last label starts with a letter, and a path of
unreserved characters and slashes with no dot segment.  On these the standard
does no more than lower-case the scheme and the host, drop a default port and
give an empty path as `/`, and `Url.parse` does the same.  It refuses every other
text with the error `outside the modelled fragment`, where the crate may accept
it: theorems over every parser do not use it.
-/

namespace OpenPortal

/-- What `create_websocket_url` reads of a parsed `url::Url`. -/
structure Url where
  /-- `Url::scheme`, lower case. -/
  scheme : List Char
  /-- `Url::host_str`. -/
  hostStr : Option (List Char)
  /-- `Url::port`: `None` also when the port is the scheme's default. -/
  port : Option UInt16
  /-- `Url::path`. -/
  path : List Char
deriving DecidableEq, Repr

/-- A `url::ParseError`, by its message. -/
structure UrlError where
  /-- The message. -/
  message : List Char
deriving DecidableEq, Repr

/-- The errors of `paddington::error::Error` that the configuration raises.
`anyhow`'s `with_context` is `any` with the context's text. -/
inductive ConfigError where
  | any (context : List Char)
  | peer (message : List Char)
  | null (message : List Char)
  | parse (message : List Char)
deriving DecidableEq, Repr

/-- The scheme `create_websocket_url` prints for a scheme it read. -/
def websocketScheme (scheme : List Char) : List Char :=
  match String.mk scheme with
  | "ws" => "ws".toList
  | "wss" => "wss".toList
  | "http" => "ws".toList
  | "https" => "wss".toList
  | _ => "wss".toList

/-- `create_websocket_url`, over the crate's parser `parse`. -/
def createWebsocketUrl (parse : List Char → Except UrlError Url) (url : List Char) :
    Except ConfigError (List Char) :=
  match parse url with
  | .error _ => .error (.any ("Could not parse URL: ".toList ++ url))
  | .ok parsed =>
    .ok (websocketScheme parsed.scheme ++ "://".toList ++ parsed.hostStr.getD "localhost".toList ++
      ':' :: Nat.toDigits 10 (parsed.port.getD 8080).toNat ++ parsed.path)

/-! ## The crate's parser on a fragment -/

namespace Url

/-- The default port of a special scheme, for the five that have one. -/
def defaultPort (scheme : List Char) : Option Nat :=
  match String.mk scheme with
  | "ftp" => some 21
  | "http" => some 80
  | "https" => some 443
  | "ws" => some 80
  | "wss" => some 443
  | _ => none

/-- The refusal of a text outside the fragment. -/
def outside : UrlError := ⟨"outside the modelled fragment".toList⟩

/-- A character of a scheme after the first. -/
def isSchemeChar (c : Char) : Bool := c.isAlphanum || c == '+' || c == '-' || c == '.'

/-- A character of a host in the fragment. -/
def isHostChar (c : Char) : Bool := c.isAlphanum || c == '.' || c == '-'

/-- A character of a path in the fragment. -/
def isPathChar (c : Char) : Bool :=
  c.isAlphanum || c == '/' || c == '-' || c == '.' || c == '_' || c == '~'

/-- One step of reading decimal digits: the value so far, then one more digit. -/
def digitStep (n : Nat) (c : Char) : Nat := 10 * n + (c.toNat - '0'.toNat)

/-- The value of a text of decimal digits. -/
def digitsValue (digits : List Char) : Nat := digits.foldl digitStep 0

/-- The host, lower-cased, when it is in the fragment: non-empty labels, the
last starting with a letter, none starting with `xn--`. -/
def host? (host : List Char) : Option (List Char) :=
  let host := host.map Char.toLower
  let labels := host.splitOn '.'
  if host.all isHostChar && labels.all (· ≠ []) &&
      (labels.getLast?.bind List.head?).any Char.isAlpha &&
      !labels.any ("xn--".toList.isPrefixOf ·) then
    some host
  else none

/-- The port: none when empty, refused when not digits or above 65535, and none
when it is the scheme's default. -/
def port? (default : Nat) (port : List Char) : Except UrlError (Option UInt16) :=
  if port.isEmpty then .ok none
  else if !port.all Char.isDigit || 65535 < digitsValue port then
    .error ⟨"invalid port number".toList⟩
  else if digitsValue port = default then .ok none
  else .ok (some (digitsValue port).toUInt16)

/-- The path, up to a query or a fragment: `/` when empty. -/
def path? (path : List Char) : Option (List Char) :=
  let path := path.takeWhile fun c => c != '?' && c != '#'
  if path.isEmpty then some ['/']
  else if path.head? = some '/' && path.all isPathChar &&
      !(path.splitOn '/').any (fun segment => segment = ['.'] || segment = ['.', '.']) then
    some path
  else none

/-- What follows `scheme://`: the authority, then the path. -/
def parseAuthority (scheme rest : List Char) : Except UrlError Url :=
  let authority := rest.takeWhile fun c => c != '/' && c != '?' && c != '#'
  match defaultPort scheme, authority.splitOn ':', path? (rest.drop authority.length) with
  | some default, host :: port, some path =>
    match host? host, port with
    | some host, [] => .ok ⟨scheme, some host, none, path⟩
    | some host, [port] => (port? default port).map fun port => ⟨scheme, some host, port, path⟩
    | _, _ => .error outside
  | _, _, _ => .error outside

/-- `<Url as FromStr>::from_str` on the fragment. -/
def parse (input : List Char) : Except UrlError Url :=
  let scheme := input.takeWhile isSchemeChar
  match scheme.head?.any Char.isAlpha, input.drop scheme.length with
  | true, ':' :: '/' :: '/' :: rest => parseAuthority (scheme.map Char.toLower) rest
  | _, _ => .error outside

example : parse "ftp://Example.com:443/".toList =
    .ok ⟨"ftp".toList, some "example.com".toList, some 443, "/".toList⟩ := by rfl
example : parse "wss://example.com:443/".toList =
    .ok ⟨"wss".toList, some "example.com".toList, none, "/".toList⟩ := by rfl
example : parse "http://localhost".toList =
    .ok ⟨"http".toList, some "localhost".toList, none, "/".toList⟩ := by rfl

end Url

end OpenPortal
