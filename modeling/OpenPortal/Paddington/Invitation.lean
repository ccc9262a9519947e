import OpenPortal.Paddington.Registry

/-!
# Invitations

A service `A` issues an invitation with `add_client(n, s)`, and a service `B`
accepts it with `add_server(invite)`.  The invitation carries `A`'s name, `A`'s
advertised URL and the two keys `A` made for its new client entry `n`.  `B`'s new
server entry has `A`'s name and the two keys (`invitation_accepted`), and it is
the only entry of that name on either side, because each call refuses a name it
already has.

The URL is not copied: `ServerConfig::from_invite` applies `create_websocket_url`
to the invitation's URL, which `ServiceConfig::new` made with the same function.
The function is not idempotent, and for `ftp://example.com:443/` the two ends
disagree on the port (`invitation_url_counterexample`).
-/

namespace OpenPortal

open ServiceConfig

variable (libs : Libs)

/-- When `B` accepts the invitation `A` issued for client `n`, `B` has exactly one
server entry named as `A`, with the keys of `A`'s only client entry named `n`, and
with the URL that `create_websocket_url` makes of `A`'s advertised URL. -/
theorem invitation_accepted {A A' B B' : ServiceConfig} {n s : List Char}
    {innerKey outerKey : Key} {invite : Invite}
    (hclient : A.addClient libs n s innerKey outerKey = (A', .ok invite))
    (hserver : B.addServer libs invite = (B', .ok ())) :
    ∃ server client,
      B'.servers.filter (·.name == A.name) = [server] ∧
      A'.clients.filter (·.name == some n) = [client] ∧
      createWebsocketUrl libs.url A.url = .ok server.url ∧
      server.innerKey = client.innerKey ∧ server.outerKey = client.outerKey := by
  rcases addClient_cases libs A n s innerKey outerKey with ⟨-, e, he⟩ | ⟨addr, -, -, hfresh, ha⟩
  · rw [hclient] at he; cases he
  rw [hclient, Prod.mk.injEq] at ha
  obtain ⟨rfl, hinvite⟩ := ha
  cases hinvite
  rcases addServer_cases libs B _ with ⟨-, e, he⟩ | ⟨server, hs, -, hnames, hb⟩
  · rw [hserver] at he; cases he
  rw [hserver, Prod.mk.injEq] at hb
  obtain ⟨rfl, -⟩ := hb
  obtain ⟨hurl, hsrv⟩ := fromInvite_eq_ok libs hs
  refine ⟨server, ClientConfig.new n addr innerKey outerKey, ?_, ?_, hurl, ?_, ?_⟩
  · rw [List.filter_append, List.filter_eq_nil_iff.2 (fun x hx => by simpa using hnames x hx)]
    rw [hsrv]; simp
  · rw [List.filter_append, List.filter_eq_nil_iff.2 (fun x hx => by simpa using hfresh x hx)]
    simp [ClientConfig.new]
  · rw [hsrv]; rfl
  · rw [hsrv]; rfl

theorem invitation_accepted_localhost :
    let primary : ServiceConfig :=
      ⟨"primary".toList, "ws://localhost:8080/".toList, .v4 0x7F000001, 5544, [], [], none⟩
    let secondary : ServiceConfig :=
      ⟨"secondary".toList, "ws://localhost:8080/".toList, .v4 0x7F000001, 5545, [], [], none⟩
    let invite : Invite := ⟨"primary".toList, "ws://localhost:8080/".toList, ⟨[1]⟩, ⟨[2]⟩⟩
    let invited := primary.addClient Libs.fragment "secondary".toList "127.0.0.1".toList ⟨[1]⟩ ⟨[2]⟩
    let accepted := secondary.addServer Libs.fragment invite
    invited = (invited.1, .ok invite) ∧ accepted = (accepted.1, .ok ()) ∧
      ∃ server client,
        accepted.1.servers.filter (·.name == primary.name) = [server] ∧
        invited.1.clients.filter (·.name == some "secondary".toList) = [client] ∧
        createWebsocketUrl Libs.fragment.url primary.url = .ok server.url ∧
        server.innerKey = client.innerKey ∧ server.outerKey = client.outerKey := by
  intro primary secondary invite invited accepted
  have hinvited : invited = (invited.1, .ok invite) := rfl
  have haccepted : accepted = (accepted.1, .ok ()) := rfl
  exact ⟨hinvited, haccepted, invitation_accepted Libs.fragment hinvited haccepted⟩

/-- A primary service advertised at `ftp://example.com:443/` invites a secondary.
The primary's URL is `wss://example.com:443/`; the secondary's server entry for it
has `wss://example.com:8080/`. -/
theorem invitation_url_counterexample :
    let primary : ServiceConfig :=
      ⟨"primary".toList, "wss://example.com:443/".toList, .v4 0x7F000001, 5544, [], [], none⟩
    let secondary : ServiceConfig :=
      ⟨"secondary".toList, "ws://localhost:8080/".toList, .v4 0x7F000001, 5545, [], [], none⟩
    let invite : Invite := ⟨"primary".toList, "wss://example.com:443/".toList, ⟨[1]⟩, ⟨[2]⟩⟩
    ServiceConfig.new Libs.fragment "primary".toList "ftp://example.com:443/".toList
        "127.0.0.1".toList 5544 = .ok primary ∧
      ServiceConfig.new Libs.fragment "secondary".toList "http://localhost".toList
        "127.0.0.1".toList 5545 = .ok secondary ∧
      (primary.addClient Libs.fragment "secondary".toList "127.0.0.1".toList ⟨[1]⟩ ⟨[2]⟩).2 =
        .ok invite ∧
      secondary.addServer Libs.fragment invite =
        ({ secondary with
            servers := [⟨"primary".toList, "wss://example.com:8080/".toList, ⟨[1]⟩, ⟨[2]⟩⟩] },
          .ok ()) ∧
      "wss://example.com:8080/".toList ≠ primary.url :=
  ⟨rfl, rfl, rfl, rfl, by decide⟩

end OpenPortal
