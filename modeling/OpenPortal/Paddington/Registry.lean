import Mathlib.Data.List.Nodup
import OpenPortal.Paddington.Config

/-!
# The peer registry over runs

The four registry calls, `add_client`, `remove_client`, `add_server` and
`remove_server`, as one step function (`ServiceConfig.apply`), and the
configurations that `ServiceConfig::new` and any sequence of calls make
(`ServiceConfig.Reachable`).

`addClient_cases` and `addServer_cases` say once what the two adding calls can
do: fail and leave the configuration as it was, or pass their checks and append
one entry whose name no entry had.  The two removing calls filter.  So every call
that fails leaves the configuration as it was (`apply_error`), every call keeps
the names of each registry distinct (`NamesUnique.apply`), and both hold on every
reachable configuration (`registry_invariant`).

Removing takes back a successful add exactly (`remove_undoes_add`), and frees the
name for the next add (`add_after_remove`).  Every entry of a reachable
configuration is a usable peer: named, and a server with a URL to dial
(`Reachable.peersUsable`).
-/

namespace OpenPortal

namespace ServiceConfig

variable (libs : Libs)

/-- A call on the registry, with the keys `Key::generate` drew for a client. -/
inductive Request where
  | addClient (name ip : List Char) (innerKey outerKey : Key)
  | removeClient (name : List Char)
  | addServer (invite : Invite)
  | removeServer (name : List Char)

/-- One registry call, with the configuration it leaves and what it returns. -/
def apply (config : ServiceConfig) : Request → ServiceConfig × Except ConfigError Unit
  | .addClient name ip innerKey outerKey =>
    let added := config.addClient libs name ip innerKey outerKey
    (added.1, added.2.map fun _ => ())
  | .removeClient name => (config.removeClient name, .ok ())
  | .addServer invite => config.addServer libs invite
  | .removeServer name => (config.removeServer name, .ok ())

/-- The configurations `ServiceConfig::new` and registry calls make. -/
inductive Reachable : ServiceConfig → Prop
  | new {name url ip : List Char} {port : UInt16} {config : ServiceConfig}
      (h : ServiceConfig.new libs name url ip port = .ok config) : Reachable config
  | apply {config : ServiceConfig} (request : Request) (h : Reachable config) :
      Reachable (config.apply libs request).1

/-- No two client entries share a name, and no two server entries. -/
structure NamesUnique (config : ServiceConfig) : Prop where
  clients : (config.clients.filterMap ClientConfig.name).Nodup
  servers : (config.servers.map ServerConfig.name).Nodup

/-! ## What one call can do -/

theorem addClient_cases (config : ServiceConfig) (name ip : List Char) (innerKey outerKey : Key) :
    (config.addClient libs name ip innerKey outerKey).1 = config ∧
        (∃ e, (config.addClient libs name ip innerKey outerKey).2 = .error e) ∨
      ∃ addr, IpOrRange.new libs ip = .ok addr ∧ name ≠ [] ∧
        (∀ c ∈ config.clients, c.name ≠ some name) ∧
        config.addClient libs name ip innerKey outerKey =
          ({ config with
              clients := config.clients ++ [ClientConfig.new name addr innerKey outerKey] },
            .ok ⟨config.name, config.url, innerKey, outerKey⟩) := by
  unfold addClient
  split
  · simp
  · next addr haddr =>
    split_ifs with hname hdup
    · simp
    · simp
    · refine .inr ⟨addr, haddr, by simpa using hname, fun c hc hcn => hdup ?_, rfl⟩
      exact List.any_eq_true.2 ⟨c, hc, by simp [hcn]⟩

theorem addServer_cases (config : ServiceConfig) (invite : Invite) :
    (config.addServer libs invite).1 = config ∧ (∃ e, (config.addServer libs invite).2 = .error e) ∨
      ∃ server, ServerConfig.fromInvite libs invite = .ok server ∧ server.url ≠ [] ∧
        (∀ s ∈ config.servers, s.name ≠ invite.name) ∧
        config.addServer libs invite =
          ({ config with servers := config.servers ++ [server] }, .ok ()) := by
  unfold addServer
  split_ifs with hdup
  · simp
  · split
    · simp
    · next server hserver =>
      split_ifs with hurl
      · simp
      · refine .inr ⟨server, hserver, by simpa using hurl, fun s hs hsn => hdup ?_, rfl⟩
        exact List.any_eq_true.2 ⟨s, hs, by simp [hsn]⟩

theorem fromInvite_eq_ok {invite : Invite} {server : ServerConfig}
    (h : ServerConfig.fromInvite libs invite = .ok server) :
    createWebsocketUrl libs.url invite.url = .ok server.url ∧
      server = ⟨invite.name, server.url, invite.innerKey, invite.outerKey⟩ := by
  unfold ServerConfig.fromInvite at h
  cases hu : createWebsocketUrl libs.url invite.url with
  | error e => simp [hu, Except.map] at h
  | ok url => simp only [hu, Except.map, Except.ok.injEq] at h; subst h; exact ⟨rfl, rfl⟩

theorem fromInvite_name {invite : Invite} {server : ServerConfig}
    (h : ServerConfig.fromInvite libs invite = .ok server) : server.name = invite.name := by
  rw [(fromInvite_eq_ok libs h).2]

/-- A call that fails leaves the whole configuration as it was. -/
theorem apply_error {config : ServiceConfig} {request : Request} {e : ConfigError}
    (h : (config.apply libs request).2 = .error e) : (config.apply libs request).1 = config := by
  cases request with
  | addClient name ip innerKey outerKey =>
    rcases addClient_cases libs config name ip innerKey outerKey with ⟨hc, -⟩ | ⟨_, -, -, -, he⟩
    · exact hc
    · simp [apply, he, Except.map] at h
  | removeClient => cases h
  | addServer invite =>
    rcases addServer_cases libs config invite with ⟨hc, -⟩ | ⟨_, -, -, -, he⟩
    · exact hc
    · simp [apply, he] at h
  | removeServer => cases h

/-! ## Names stay distinct -/

theorem NamesUnique.apply {config : ServiceConfig} (h : config.NamesUnique) (request : Request) :
    (config.apply libs request).1.NamesUnique := by
  cases request with
  | addClient name ip innerKey outerKey =>
    rcases addClient_cases libs config name ip innerKey outerKey with ⟨hc, -⟩ | ⟨_, -, -, hnew, he⟩
    · simpa [ServiceConfig.apply, hc] using h
    · refine ⟨?_, by simpa [ServiceConfig.apply, he] using h.servers⟩
      simp only [ServiceConfig.apply, he, List.filterMap_append, List.nodup_append]
      refine ⟨h.clients, by simp [ClientConfig.new], ?_⟩
      simp only [ClientConfig.new, List.filterMap_cons, List.filterMap_nil, List.disjoint_singleton,
        List.mem_filterMap, not_exists, not_and]
      exact hnew
  | removeClient name =>
    exact ⟨h.clients.sublist ((List.filter_sublist _).filterMap _), h.servers⟩
  | addServer invite =>
    rcases addServer_cases libs config invite with ⟨hc, -⟩ | ⟨server, hserver, -, hnew, he⟩
    · simpa [ServiceConfig.apply, hc] using h
    · refine ⟨by simpa [ServiceConfig.apply, he] using h.clients, ?_⟩
      simp only [ServiceConfig.apply, he, List.map_append, List.map_cons, List.map_nil,
        List.nodup_append, List.nodup_singleton, List.disjoint_singleton, List.mem_map,
        not_exists, not_and, fromInvite_name libs hserver]
      exact ⟨h.servers, trivial, hnew⟩
  | removeServer name =>
    exact ⟨h.clients, h.servers.sublist ((List.filter_sublist _).map _)⟩

theorem Reachable.namesUnique {config : ServiceConfig} (h : Reachable libs config) :
    config.NamesUnique := by
  induction h with
  | new hnew =>
    obtain ⟨_, -, hc⟩ := new_eq_ok libs hnew
    rw [hc]
    exact ⟨List.nodup_nil, List.nodup_nil⟩
  | apply request _ ih => exact ih.apply libs request

/-- Every registry call that fails leaves the client list and the server list as
they were. -/
def ErrorsKeepLists (config : ServiceConfig) : Prop :=
  ∀ (request : Request) (e : ConfigError), (config.apply libs request).2 = .error e →
    (config.apply libs request).1.clients = config.clients ∧
      (config.apply libs request).1.servers = config.servers

/-- On every configuration `ServiceConfig::new` and registry calls make, no two
client entries share a name and no two server entries do, and every registry call
that fails leaves the client list and the server list as they were. -/
theorem registry_invariant {config : ServiceConfig} (h : Reachable libs config) :
    config.NamesUnique ∧ config.ErrorsKeepLists libs :=
  ⟨h.namesUnique, fun _ _ he => by rw [apply_error libs he]; exact ⟨rfl, rfl⟩⟩

theorem registry_invariant_after_invite :
    let primary : ServiceConfig :=
      ⟨"primary".toList, "ws://localhost:8080/".toList, .v4 0x7F000001, 5544, [], [], none⟩
    let request := Request.addClient "secondary".toList "127.0.0.1".toList ⟨[1]⟩ ⟨[2]⟩
    Reachable Libs.fragment (primary.apply Libs.fragment request).1 ∧
      (primary.apply Libs.fragment request).1.NamesUnique ∧
      (primary.apply Libs.fragment request).1.ErrorsKeepLists Libs.fragment := by
  intro primary request
  have hnew : ServiceConfig.new Libs.fragment "primary".toList "http://localhost".toList
      "127.0.0.1".toList 5544 = .ok primary := rfl
  have h := Reachable.apply request (Reachable.new hnew)
  exact ⟨h, registry_invariant Libs.fragment h⟩

/-! ## Removing takes back adding -/

/-- `remove_client` takes back an `add_client` that succeeded: no entry had the name
before, so the filter drops only the entry just added. -/
theorem removeClient_addClient {config : ServiceConfig} {name ip : List Char}
    {innerKey outerKey : Key} {invite : Invite}
    (h : (config.addClient libs name ip innerKey outerKey).2 = .ok invite) :
    (config.addClient libs name ip innerKey outerKey).1.removeClient name = config := by
  rcases addClient_cases libs config name ip innerKey outerKey with
    ⟨-, e, he⟩ | ⟨addr, -, -, hnew, hadd⟩
  · rw [he] at h; cases h
  · have hkeep : config.clients.filter (·.name != some name) = config.clients :=
      List.filter_eq_self.2 fun c hc => by simpa using hnew c hc
    simp [hadd, removeClient, hkeep, ClientConfig.new]

/-- `remove_server` takes back an `add_server` that succeeded, by the invitation's
name. -/
theorem removeServer_addServer {config : ServiceConfig} {invite : Invite}
    (h : (config.addServer libs invite).2 = .ok ()) :
    (config.addServer libs invite).1.removeServer invite.name = config := by
  rcases addServer_cases libs config invite with ⟨-, e, he⟩ | ⟨server, hserver, -, hnew, hadd⟩
  · rw [he] at h; cases h
  · have hkeep : config.servers.filter (·.name != invite.name) = config.servers :=
      List.filter_eq_self.2 fun s hs => by simpa using hnew s hs
    simp [hadd, removeServer, hkeep, fromInvite_name libs hserver]

/-- Removing by name takes back every adding call that succeeded, on every
configuration: after `add_client` then `remove_client` of the same name, and after
`add_server` then `remove_server` of the invitation's name, the configuration is the
one before. -/
theorem remove_undoes_add (config : ServiceConfig) :
    (∀ name ip innerKey outerKey invite,
      (config.addClient libs name ip innerKey outerKey).2 = .ok invite →
        (config.addClient libs name ip innerKey outerKey).1.removeClient name = config) ∧
    ∀ invite, (config.addServer libs invite).2 = .ok () →
      (config.addServer libs invite).1.removeServer invite.name = config :=
  ⟨fun _ _ _ _ _ => removeClient_addClient libs, fun _ => removeServer_addServer libs⟩

/-- The test's two services: the secondary added as a client of the primary and
removed again, and the primary's invitation taken by the secondary and removed
again. -/
theorem remove_undoes_add_invitation :
    let primary : ServiceConfig :=
      ⟨"primary".toList, "ws://localhost:8080/".toList, .v4 0x7F000001, 5544, [], [], none⟩
    let secondary : ServiceConfig :=
      ⟨"secondary".toList, "ws://localhost:8080/".toList, .v4 0x7F000001, 5545, [], [], none⟩
    let invite : Invite := ⟨"primary".toList, "ws://localhost:8080/".toList, ⟨[1]⟩, ⟨[2]⟩⟩
    let added := primary.addClient Libs.fragment "secondary".toList "127.0.0.1".toList
      ⟨[1]⟩ ⟨[2]⟩
    (added.2 = .ok invite ∧ added.1.removeClient "secondary".toList = primary) ∧
      (secondary.addServer Libs.fragment invite).2 = .ok () ∧
      (secondary.addServer Libs.fragment invite).1.removeServer invite.name = secondary := by
  intro primary secondary invite added
  have hclient : added.2 = .ok invite := rfl
  have hserver : (secondary.addServer Libs.fragment invite).2 = .ok () := rfl
  exact ⟨⟨hclient, (remove_undoes_add Libs.fragment primary).1 _ _ _ _ _ hclient⟩,
    hserver, (remove_undoes_add Libs.fragment secondary).2 _ hserver⟩

/-! ## Every entry is a usable peer -/

/-- `create_websocket_url` never returns the empty text. -/
theorem createWebsocketUrl_ne_nil {url out : List Char}
    (h : createWebsocketUrl libs.url url = .ok out) : out ≠ [] := by
  unfold createWebsocketUrl at h
  split at h
  · cases h
  · cases h
    simp

theorem fromInvite_eq_error {invite : Invite} {e : ConfigError}
    (h : ServerConfig.fromInvite libs invite = .error e) :
    e = .any ("Could not parse URL: ".toList ++ invite.url) := by
  unfold ServerConfig.fromInvite createWebsocketUrl at h
  split at h
  · simpa [Except.map, eq_comm] using h
  · cases h

/-- `add_server` never fails for want of a URL: a converted invitation's URL is never
empty, so the check for one is dead code. -/
theorem addServer_ne_noUrl (config : ServiceConfig) (invite : Invite) :
    (config.addServer libs invite).2 ≠ .error (.null "No URL provided.".toList) := by
  unfold addServer
  split_ifs
  · simp
  · split
    · next e he => simp [fromInvite_eq_error libs he]
    · next server hserver =>
      simp [createWebsocketUrl_ne_nil libs (fromInvite_eq_ok libs hserver).1]

/-- Each entry can be used as a peer: every client entry is named and has an address,
and every server entry has a websocket URL. -/
structure PeersUsable (config : ServiceConfig) : Prop where
  clients : ∀ c ∈ config.clients, c.toPeer.isNull = false ∧
    ∃ name, c.toPeer.name = some name ∧ name ≠ []
  servers : ∀ s ∈ config.servers, s.getWebsocketUrl = .ok s.url

theorem PeersUsable.apply {config : ServiceConfig} (h : config.PeersUsable) (request : Request) :
    (config.apply libs request).1.PeersUsable := by
  cases request with
  | addClient name ip innerKey outerKey =>
    rcases addClient_cases libs config name ip innerKey outerKey with
      ⟨hc, -⟩ | ⟨_, -, hname, -, he⟩
    · simpa [ServiceConfig.apply, hc] using h
    · refine ⟨?_, by simpa [ServiceConfig.apply, he] using h.servers⟩
      simp only [ServiceConfig.apply, he, List.mem_append, List.mem_singleton]
      rintro c (hc | rfl)
      · exact h.clients c hc
      · exact ⟨rfl, name, rfl, by simpa using hname⟩
  | removeClient => exact ⟨fun c hc => h.clients c (List.mem_of_mem_filter hc), h.servers⟩
  | addServer invite =>
    rcases addServer_cases libs config invite with ⟨hc, -⟩ | ⟨_, -, hurl, -, he⟩
    · simpa [ServiceConfig.apply, hc] using h
    · refine ⟨by simpa [ServiceConfig.apply, he] using h.clients, ?_⟩
      simp only [ServiceConfig.apply, he, List.mem_append, List.mem_singleton]
      rintro s (hs | rfl)
      · exact h.servers s hs
      · simp [ServerConfig.getWebsocketUrl, hurl]
  | removeServer => exact ⟨h.clients, fun s hs => h.servers s (List.mem_of_mem_filter hs)⟩

/-- On every configuration `ServiceConfig::new` and registry calls make, no client
entry is null and each is named, and `get_websocket_url` succeeds on every server
entry. -/
theorem Reachable.peersUsable {config : ServiceConfig} (h : Reachable libs config) :
    config.PeersUsable := by
  induction h with
  | new hnew =>
    obtain ⟨_, -, hc⟩ := new_eq_ok libs hnew
    rw [hc]
    exact ⟨by simp, by simp⟩
  | apply request _ ih => exact ih.apply libs request

/-- Server entries need not be named: `add_server` takes an invitation with an empty
name, and the entry it adds is null. -/
theorem peersUsable_unnamed_server :
    let primary : ServiceConfig :=
      ⟨"primary".toList, "ws://localhost:8080/".toList, .v4 0x7F000001, 5544, [], [], none⟩
    let config := (primary.apply Libs.fragment
      (.addServer ⟨[], "http://localhost".toList, ⟨[1]⟩, ⟨[2]⟩⟩)).1
    Reachable Libs.fragment config ∧ config.PeersUsable ∧
      ∃ s ∈ config.servers, s.toPeer.isNull = true := by
  intro primary config
  have hnew : ServiceConfig.new Libs.fragment "primary".toList "http://localhost".toList
      "127.0.0.1".toList 5544 = .ok primary := rfl
  have h : Reachable Libs.fragment config := .apply _ (.new hnew)
  exact ⟨h, h.peersUsable Libs.fragment, by decide⟩

/-! ## Removing frees the name -/

/-- After `remove_client(name)`, `add_client(name, ip)` succeeds on every configuration,
whenever the name is not empty and `IpOrRange::new` reads the address: removing frees the
name.  The same holds of `remove_server` and `add_server` for an invitation whose URL
converts. -/
theorem add_after_remove (config : ServiceConfig) :
    (∀ name ip innerKey outerKey addr, name ≠ [] → IpOrRange.new libs ip = .ok addr →
      ((config.removeClient name).addClient libs name ip innerKey outerKey).2 =
        .ok ⟨config.name, config.url, innerKey, outerKey⟩) ∧
    ∀ invite server, ServerConfig.fromInvite libs invite = .ok server →
      ((config.removeServer invite.name).addServer libs invite).2 = .ok () := by
  refine ⟨fun name ip innerKey outerKey addr hname hip => ?_, fun invite server hserver => ?_⟩
  · have hfree : ((config.removeClient name).clients.any (·.name == some name)) = false := by
      simp [removeClient]
    simp only [addClient, hip, hfree]
    simp [hname, removeClient, ClientConfig.new]
  · have hfree : ((config.removeServer invite.name).servers.any (·.name == invite.name)) =
        false := by
      simp [removeServer]
    have hurl := createWebsocketUrl_ne_nil libs (fromInvite_eq_ok libs hserver).1
    simp only [addServer, hfree, hserver]
    simp [hurl]

/-- The test's secondary, removed from the primary's clients and added again from the same
address; and the primary's invitation, removed from the secondary and taken again. -/
theorem add_after_remove_invitation :
    let primary : ServiceConfig :=
      ⟨"primary".toList, "ws://localhost:8080/".toList, .v4 0x7F000001, 5544, [], [], none⟩
    let invite : Invite := ⟨"primary".toList, "ws://localhost:8080/".toList, ⟨[1]⟩, ⟨[2]⟩⟩
    ("secondary".toList ≠ [] ∧
      IpOrRange.new Libs.fragment "127.0.0.1".toList = .ok (.ip (.v4 0x7F000001)) ∧
      ((primary.removeClient "secondary".toList).addClient Libs.fragment "secondary".toList
        "127.0.0.1".toList ⟨[1]⟩ ⟨[2]⟩).2 = .ok ⟨primary.name, primary.url, ⟨[1]⟩, ⟨[2]⟩⟩) ∧
    ((∃ server, ServerConfig.fromInvite Libs.fragment invite = .ok server) ∧
      ((primary.removeServer invite.name).addServer Libs.fragment invite).2 = .ok ()) := by
  intro primary invite
  have hname : "secondary".toList ≠ [] := by decide
  have hip : IpOrRange.new Libs.fragment "127.0.0.1".toList = .ok (.ip (.v4 0x7F000001)) := rfl
  obtain ⟨server, hserver⟩ : ∃ server, ServerConfig.fromInvite Libs.fragment invite = .ok server :=
    ⟨_, rfl⟩
  exact ⟨⟨hname, hip, (add_after_remove Libs.fragment primary).1 _ _ _ _ _ hname hip⟩,
    ⟨server, hserver⟩, (add_after_remove Libs.fragment primary).2 _ _ hserver⟩

end ServiceConfig

end OpenPortal
