import OpenPortal.Paddington.Registry

/-!
# The registry as two maps

What the registry is for: two partial maps from names to entries, the peers allowed
to connect in and the peers to dial.  `Registry` states each call on the maps.  An
add makes the checks the code makes, with "no entry has the name" read off the map,
and stores the entry under its name; a remove deletes the name; a refused call
changes nothing.

`ServiceConfig` keeps each map as a list and reads a name by its first entry
(`ServiceConfig.registry`).  A remove filters out every entry of the name, and an
add appends only a name the list does not hold, so on every configuration, reachable
or not, one call of the code is one call on its maps and fails exactly when that
call refuses (`ServiceConfig.apply_refines`), and a run of calls is the run on the
maps (`ServiceConfig.applyAll_refines`).  The invitation `add_client` returns is
not part of the maps; `Registry.lean` says what it carries.
-/

namespace OpenPortal

/-- The registry as maps from names to entries. -/
structure Registry where
  /-- The peers allowed to connect in, by name. -/
  clients : List Char → Option ClientConfig
  /-- The peers this service connects out to, by name. -/
  servers : List Char → Option ServerConfig

namespace Registry

variable (libs : Libs)

/-- A registry call on the maps: the checks the code makes, with "no entry has the
name" read off the map; `none` when the call is refused. -/
def apply (registry : Registry) : ServiceConfig.Request → Option Registry
  | .addClient name ip innerKey outerKey =>
    match IpOrRange.new libs ip with
    | .error _ => none
    | .ok addr =>
      if name = [] ∨ (registry.clients name).isSome then none
      else some { registry with
        clients := Function.update registry.clients name
          (some (ClientConfig.new name addr innerKey outerKey)) }
  | .removeClient name =>
    some { registry with clients := Function.update registry.clients name none }
  | .addServer invite =>
    match ServerConfig.fromInvite libs invite with
    | .error _ => none
    | .ok server =>
      if (registry.servers invite.name).isSome ∨ server.url = [] then none
      else some { registry with
        servers := Function.update registry.servers invite.name (some server) }
  | .removeServer name =>
    some { registry with servers := Function.update registry.servers name none }

/-- A run of calls on the maps; a refused call changes nothing. -/
def applyAll (registry : Registry) : List ServiceConfig.Request → Registry
  | [] => registry
  | request :: requests => ((registry.apply libs request).getD registry).applyAll requests

end Registry

/-! ## Lists read by a key -/

section Key

variable {α κ : Type} [BEq κ] [LawfulBEq κ] [DecidableEq κ] (key : α → κ)

/-- Filtering out a key deletes it from the list read by that key, and keeps every
other key's first entry. -/
theorem find?_filter_key (l : List α) (k k' : κ) :
    (l.filter (key · != k)).find? (key · == k') =
      if k' = k then none else l.find? (key · == k') := by
  rw [List.find?_filter]
  split_ifs with h
  · subst h
    simp [List.find?_eq_none]
  · congr
    funext x
    by_cases hx : key x = k' <;> simp [hx, h]

/-- Appending an entry whose key the list does not hold stores it under that key. -/
theorem find?_append_key {l : List α} {x : α} (hfree : l.find? (key · == key x) = none)
    (k : κ) :
    (l ++ [x]).find? (key · == k) = if k = key x then some x else l.find? (key · == k) := by
  rw [List.find?_append]
  split_ifs with h
  · subst h
    simp [hfree]
  · rw [List.find?_singleton, if_neg (by simpa using Ne.symm h), Option.or_none]

end Key

namespace ServiceConfig

variable (libs : Libs)

/-- The client entry a name reads: the first entry with that name. -/
def clientMap (config : ServiceConfig) (name : List Char) : Option ClientConfig :=
  config.clients.find? (·.name == some name)

/-- The server entry a name reads: the first entry with that name. -/
def serverMap (config : ServiceConfig) (name : List Char) : Option ServerConfig :=
  config.servers.find? (·.name == name)

/-- The maps a configuration's two lists hold. -/
def registry (config : ServiceConfig) : Registry := ⟨config.clientMap, config.serverMap⟩

/-- A run of registry calls, each on the configuration the one before left. -/
def applyAll (config : ServiceConfig) : List Request → ServiceConfig
  | [] => config
  | request :: requests => (config.apply libs request).1.applyAll requests

/-! ## Lists as maps -/

theorem any_clients_eq (config : ServiceConfig) (name : List Char) :
    config.clients.any (·.name == some name) = (config.clientMap name).isSome := by
  rw [Bool.eq_iff_iff, List.any_eq_true, clientMap, List.find?_isSome]

theorem any_servers_eq (config : ServiceConfig) (name : List Char) :
    config.servers.any (·.name == name) = (config.serverMap name).isSome := by
  rw [Bool.eq_iff_iff, List.any_eq_true, serverMap, List.find?_isSome]

theorem clientMap_removeClient (config : ServiceConfig) (name : List Char) :
    (config.removeClient name).clientMap = Function.update config.clientMap name none := by
  funext other
  refine (find?_filter_key ClientConfig.name config.clients (some name) (some other)).trans ?_
  simp [Function.update_apply, clientMap]

theorem serverMap_removeServer (config : ServiceConfig) (name : List Char) :
    (config.removeServer name).serverMap = Function.update config.serverMap name none := by
  funext other
  exact (find?_filter_key ServerConfig.name config.servers name other).trans
    (Function.update_apply config.serverMap name none other).symm

/-- Appending an entry under a name the map does not hold stores it under that name. -/
theorem clientMap_append {config : ServiceConfig} {name : List Char} {client : ClientConfig}
    (hname : client.name = some name) (hfree : config.clientMap name = none) :
    ({ config with clients := config.clients ++ [client] }).clientMap =
      Function.update config.clientMap name (some client) := by
  funext other
  have hfree' : config.clients.find? (·.name == client.name) = none := by rw [hname]; exact hfree
  refine (find?_append_key ClientConfig.name hfree' (some other)).trans ?_
  simp [Function.update_apply, clientMap, hname]

theorem serverMap_append {config : ServiceConfig} {server : ServerConfig}
    (hfree : config.serverMap server.name = none) :
    ({ config with servers := config.servers ++ [server] }).serverMap =
      Function.update config.serverMap server.name (some server) := by
  funext other
  have hfree' : config.servers.find? (·.name == server.name) = none := hfree
  exact (find?_append_key ServerConfig.name hfree' other).trans
    (Function.update_apply config.serverMap server.name (some server) other).symm

/-! ## One call is one call on the maps -/

theorem apply_refines (config : ServiceConfig) (request : Request) :
    config.registry.apply libs request =
      (config.apply libs request).2.toOption.map fun _ =>
        (config.apply libs request).1.registry := by
  cases request with
  | addClient name ip innerKey outerKey =>
    simp only [Registry.apply, apply, addClient, registry]
    cases hip : IpOrRange.new libs ip with
    | error => rfl
    | ok addr =>
      simp only [any_clients_eq, List.isEmpty_iff]
      by_cases hname : name = []
      · simp [hname, Except.map, Except.toOption]
      by_cases hfree : (config.clientMap name).isSome
      · simp [hname, hfree, Except.map, Except.toOption]
      · have hnone : config.clientMap name = none := by simpa using hfree
        simp only [hname, hfree, or_self, if_false, Bool.false_eq_true]
        rw [clientMap_append rfl hnone]
        rfl
  | removeClient name =>
    simp only [Registry.apply, apply, registry, clientMap_removeClient]
    rfl
  | addServer invite =>
    simp only [Registry.apply, apply, addServer, registry, any_servers_eq]
    by_cases hdup : (config.serverMap invite.name).isSome
    · cases ServerConfig.fromInvite libs invite <;> simp [hdup, Except.toOption]
    cases hserver : ServerConfig.fromInvite libs invite with
    | error => simp [hdup, Except.toOption]
    | ok server =>
      by_cases hurl : server.url = []
      · simp [hdup, hurl, Except.toOption]
      · have hname := fromInvite_name libs hserver
        have hnone : config.serverMap server.name = none := by simpa [hname] using hdup
        simp only [hdup, hurl, List.isEmpty_iff, or_self, if_false, Bool.false_eq_true]
        rw [serverMap_append hnone, hname]
        rfl
  | removeServer name =>
    simp only [Registry.apply, apply, registry, serverMap_removeServer]
    rfl

/-- A call the code refuses leaves the maps, as the abstract call does. -/
theorem apply_getD (config : ServiceConfig) (request : Request) :
    (config.registry.apply libs request).getD config.registry =
      (config.apply libs request).1.registry := by
  rw [apply_refines]
  cases h : (config.apply libs request).2 with
  | error e => rw [apply_error libs h]; rfl
  | ok => rfl

theorem applyAll_refines (config : ServiceConfig) (requests : List Request) :
    (config.applyAll libs requests).registry = config.registry.applyAll libs requests := by
  induction requests generalizing config with
  | nil => rfl
  | cons request requests ih => rw [applyAll, Registry.applyAll, apply_getD, ih]

/-- The registry is two maps from names to entries.  On every configuration, each
registry call of the code moves the maps its lists hold as the call on the maps does,
and fails exactly when that call refuses; so every run of calls leaves the maps the run
on the maps computes. -/
theorem registry_refines (config : ServiceConfig) :
    (∀ request, config.registry.apply libs request =
      (config.apply libs request).2.toOption.map fun _ => (config.apply libs request).1.registry) ∧
    ∀ requests, (config.applyAll libs requests).registry = config.registry.applyAll libs requests :=
  ⟨apply_refines libs config, applyAll_refines libs config⟩

end ServiceConfig

end OpenPortal
