import OpenPortal.Paddington.Url

/-!
# Service configuration and its peer registry

`paddington::config`: a service's name, its advertised websocket URL, the address
it listens on, and two registries.  A *client* entry lets the named peer connect
in from an address or a range; a *server* entry lets this service connect out to
the named peer.  `add_client` makes a client entry with two fresh keys and
returns the invitation that carries them, with this service's name and URL;
`add_server` reads such an invitation into a server entry.

The model takes what the code draws from outside as arguments: the parsers of the
`url` crate, of `std::net::IpAddr` and of `iptools` (`Libs`), and the keys that
`Key::generate` drew.  A call that changes the configuration returns it beside its
result, also when the result is an error.

`ServiceConfig.Reachable` is every configuration `ServiceConfig::new` and any
sequence of registry calls can make.  Each call keeps the names of each registry
distinct (`ServiceConfig.NamesUnique`), and a call that fails leaves the whole
configuration as it was (`ServiceConfig.apply_error`).
-/

namespace OpenPortal

/-- A `crypto::Key`, by its bytes.  `SecretKey` only wraps it. -/
structure Key where
  /-- The bytes of the key. -/
  data : List UInt8
deriving DecidableEq, Repr

/-- A `std::net::IpAddr`. -/
inductive IpAddr where
  | v4 (bits : BitVec 32)
  | v6 (bits : BitVec 128)
deriving DecidableEq, Repr

/-- The external parsers the configuration calls. -/
structure Libs where
  /-- `<url::Url as FromStr>::from_str`, read through `Url`. -/
  url : List Char → Except UrlError Url
  /-- `<std::net::IpAddr as FromStr>::from_str`. -/
  ipAddr : List Char → Option IpAddr
  /-- `iptools::iprange::IpRange::new(range, "")`, with the message of its error. -/
  ipRange : List Char → Except (List Char) Unit

/-- Modelled from the spec: `invite::Invite` is not among the sources.  The spec's
invitation is the record `{name, url, inner_key, outer_key}`, and `Invite::new`
and its accessors store and read these four fields. -/
structure Invite where
  /-- The name of the service that issued it. -/
  name : List Char
  /-- The service's advertised URL. -/
  url : List Char
  /-- The key between the two endpoints. -/
  innerKey : Key
  /-- The key between the two directly connected peers. -/
  outerKey : Key
deriving DecidableEq, Repr

/-- `config::ServerConfig`: a peer this service connects out to. -/
structure ServerConfig where
  /-- The peer's name. -/
  name : List Char
  /-- The peer's websocket URL. -/
  url : List Char
  /-- The key between the two endpoints. -/
  innerKey : Key
  /-- The key between the two directly connected peers. -/
  outerKey : Key
deriving DecidableEq, Repr

/-- `config::IpOrRange`. -/
inductive IpOrRange where
  | ip (addr : IpAddr)
  | range (range : List Char)
deriving DecidableEq, Repr

/-- `config::ClientConfig`: a peer allowed to connect in. -/
structure ClientConfig where
  /-- The peer's name; `None` only in the null entry. -/
  name : Option (List Char)
  /-- Where the peer may connect from. -/
  ip : Option IpOrRange
  /-- The key between the two endpoints. -/
  innerKey : Key
  /-- The key between the two directly connected peers. -/
  outerKey : Key
deriving DecidableEq, Repr

/-- `config::EncryptionScheme`. -/
inductive EncryptionScheme where
  | environment (key : List Char)
  | simple
deriving DecidableEq, Repr

/-- `config::ServiceConfig`. -/
structure ServiceConfig where
  /-- The service's name. -/
  name : List Char
  /-- The service's advertised websocket URL. -/
  url : List Char
  /-- The address the service listens on. -/
  ip : IpAddr
  /-- The port the service listens on. -/
  port : UInt16
  /-- The peers this service connects out to. -/
  servers : List ServerConfig
  /-- The peers allowed to connect in. -/
  clients : List ClientConfig
  /-- How the service's own key is derived. -/
  encryption : Option EncryptionScheme
deriving DecidableEq, Repr

variable (libs : Libs)

/-- `IpOrRange::new`: an address if `IpAddr` reads it, else a range if `iptools`
reads it. -/
def IpOrRange.new (ip : List Char) : Except ConfigError IpOrRange :=
  match libs.ipAddr ip with
  | some addr => .ok (.ip addr)
  | none =>
    match libs.ipRange ip with
    | .ok () => .ok (.range ip)
    | .error err => .error (.parse ("Could not parse IP address or range: ".toList ++ ip ++
        ", error ".toList ++ err))

/-- `ClientConfig::new`, with the keys `Key::generate` drew. -/
def ClientConfig.new (name : List Char) (ip : IpOrRange) (innerKey outerKey : Key) :
    ClientConfig :=
  ⟨some name, some ip, innerKey, outerKey⟩

/-- `ServerConfig::new`, with the keys `Key::generate` drew.  A URL that does not
convert is stored as the empty text. -/
def ServerConfig.new (name url : List Char) (innerKey outerKey : Key) : ServerConfig :=
  ⟨name, ((createWebsocketUrl libs.url url).toOption).getD [], innerKey, outerKey⟩

/-- `ServerConfig::from_invite`. -/
def ServerConfig.fromInvite (invite : Invite) : Except ConfigError ServerConfig :=
  (createWebsocketUrl libs.url invite.url).map fun url =>
    ⟨invite.name, url, invite.innerKey, invite.outerKey⟩

/-- `ServerConfig::get_websocket_url`. -/
def ServerConfig.getWebsocketUrl (server : ServerConfig) : Except ConfigError (List Char) :=
  if server.url.isEmpty then .error (.null "No URL provided.".toList) else .ok server.url

namespace ServiceConfig

/-- `ServiceConfig::new`. -/
def new (name url ip : List Char) (port : UInt16) : Except ConfigError ServiceConfig :=
  createWebsocketUrl libs.url url >>= fun url =>
    match libs.ipAddr ip with
    | some ip => .ok ⟨name, url, ip, port, [], [], none⟩
    | none => .error (.any ("Could not parse IP address: ".toList ++ ip))

theorem new_eq_ok {name url ip : List Char} {port : UInt16} {config : ServiceConfig}
    (h : new libs name url ip port = .ok config) :
    ∃ addr, createWebsocketUrl libs.url url = .ok config.url ∧
      config = ⟨name, config.url, addr, port, [], [], none⟩ := by
  obtain ⟨url', hurl, h⟩ := bind_eq_ok.1 h
  split at h
  · next addr _ => cases h; exact ⟨addr, hurl, rfl⟩
  · cases h

/-- `ServiceConfig::add_client`, with the keys `Key::generate` drew. -/
def addClient (config : ServiceConfig) (name ip : List Char) (innerKey outerKey : Key) :
    ServiceConfig × Except ConfigError Invite :=
  match IpOrRange.new libs ip with
  | .error _ =>
    (config, .error (.any ("Could not parse into an IP address or IP range: ".toList ++ ip)))
  | .ok ip =>
    if name.isEmpty then (config, .error (.peer "No client name provided.".toList))
    else if config.clients.any (·.name == some name) then
      (config, .error (.peer ("Client with name '".toList ++ name ++ "' already exists.".toList)))
    else
      let client := ClientConfig.new name ip innerKey outerKey
      ({ config with clients := config.clients ++ [client] },
        .ok ⟨config.name, config.url, client.innerKey, client.outerKey⟩)

/-- `ServiceConfig::remove_client`. -/
def removeClient (config : ServiceConfig) (name : List Char) : ServiceConfig :=
  { config with clients := config.clients.filter (·.name != some name) }

/-- `ServiceConfig::add_server`. -/
def addServer (config : ServiceConfig) (invite : Invite) :
    ServiceConfig × Except ConfigError Unit :=
  if config.servers.any (·.name == invite.name) then
    (config, .error (.peer ("Server with name '".toList ++ invite.name ++
      "' already exists.".toList)))
  else
    match ServerConfig.fromInvite libs invite with
    | .error e => (config, .error e)
    | .ok server =>
      if server.url.isEmpty then (config, .error (.null "No URL provided.".toList))
      else ({ config with servers := config.servers ++ [server] }, .ok ())

/-- `ServiceConfig::remove_server`. -/
def removeServer (config : ServiceConfig) (name : List Char) : ServiceConfig :=
  { config with servers := config.servers.filter (·.name != name) }

end ServiceConfig

/-! ## Entries as peers -/

/-- `config::PeerConfig`: an entry of either registry, as the peer to connect with. -/
inductive PeerConfig where
  | server (server : ServerConfig)
  | client (client : ClientConfig)
  | none
deriving DecidableEq, Repr

/-- `ServerConfig::is_null`. -/
def ServerConfig.isNull (server : ServerConfig) : Bool := server.name.isEmpty

/-- `ClientConfig::is_null`. -/
def ClientConfig.isNull (client : ClientConfig) : Bool := client.ip.isNone

/-- `ServerConfig::to_peer`, that is `PeerConfig::from_server`. -/
def ServerConfig.toPeer (server : ServerConfig) : PeerConfig := .server server

/-- `ClientConfig::to_peer`, that is `PeerConfig::from_client`. -/
def ClientConfig.toPeer (client : ClientConfig) : PeerConfig := .client client

namespace PeerConfig

/-- `PeerConfig::create_null`. -/
def createNull : PeerConfig := .none

/-- `PeerConfig::is_null`. -/
def isNull : PeerConfig → Bool
  | .server entry => entry.isNull
  | .client entry => entry.isNull
  | .none => true

/-- `PeerConfig::is_client`. -/
def isClient : PeerConfig → Bool
  | .client _ => true
  | _ => false

/-- `PeerConfig::is_server`. -/
def isServer : PeerConfig → Bool
  | .server _ => true
  | _ => false

/-- `PeerConfig::name`. -/
def name : PeerConfig → Option (List Char)
  | .server entry => some entry.name
  | .client entry => entry.name
  | .none => Option.none

end PeerConfig

/-! ## The crates on fragments

Concrete parsers for the worked cases: `Url.parse`, and `std`'s address parser and
`iptools`' range parser on IPv4 text.  Every other text, IPv6 included, is refused
here. -/

/-- An octet of a dotted quad: decimal digits, no leading zero, at most 255. -/
def octet? (text : List Char) : Option Nat :=
  if text ≠ [] ∧ text.all Char.isDigit ∧ (text.length = 1 ∨ text.head? ≠ some '0') ∧
      Url.digitsValue text ≤ 255 then
    some (Url.digitsValue text)
  else none

/-- `<IpAddr as FromStr>::from_str` on dotted-quad IPv4 text. -/
def IpAddr.parseV4 (text : List Char) : Option IpAddr :=
  match (text.splitOn '.').mapM octet? with
  | some [a, b, c, d] => some (.v4 (BitVec.ofNat 32 (((a * 256 + b) * 256 + c) * 256 + d)))
  | _ => none

/-- `IpRange::new(range, "")` on IPv4 ranges `address/bits`. -/
def ipRangeV4 (range : List Char) : Except (List Char) Unit :=
  match range.splitOn '/' with
  | [addr, bits] =>
    if (IpAddr.parseV4 addr).isSome ∧ bits ≠ [] ∧ bits.all Char.isDigit ∧
        Url.digitsValue bits ≤ 32 then .ok ()
    else .error "outside the modelled fragment".toList
  | _ => .error "outside the modelled fragment".toList

/-- The three crates on the fragments above. -/
def Libs.fragment : Libs := ⟨Url.parse, IpAddr.parseV4, ipRangeV4⟩

example : IpAddr.parseV4 "127.0.0.1".toList = some (.v4 0x7F000001) := by decide
example : IpAddr.parseV4 "127.0.0.01".toList = none := by decide

end OpenPortal
