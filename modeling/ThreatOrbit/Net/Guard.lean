import ThreatOrbit.Lib.Url

/-
  The guard of user-supplied outbound URLs.

  A URL is checked by its scheme and host, and a host that
  is a name by the addresses it resolves to. A request is
  checked again when it is sent, and pinned to an address it
  resolved to. The host is resolved by the check, by the
  pinning, and by the client when nothing was pinned, and
  each time the resolver may answer as it likes.

  The client is a library of its own: `HttpClient` is what
  it opens connections to, and `HttpClient.Documented` what
  the guard relies on.
-/

---- Blocked Addresses

namespace ThreatOrbit.Net

open Lib

/- `_NAT64_WELL_KNOWN`. -/
def nat64WellKnown : Block 128 :=
  v6Block [0x64, 0xff9b] ⟨96, by decide⟩

/- `_nat64_prefixes`, of `DASHBOARD_NAT64_PREFIXES`. -/
def nat64Prefixes (declared : Str) : List (Block 128) :=
  nat64WellKnown ::
    ((splitOn (cp ',') declared).map strip).filterMap fun raw =>
      if raw = [] then none
      else
        match ipNetwork raw with
        | some (.v6 block) => some block
        | _ => none

/- The version 4 address inside an address of a prefix. -/
def decodeNat64
    (ip : BitVec 128)
    (net : Block 128) : Option (BitVec 32) :=
  let plen := net.prefixlen.val
  if plen = 96 then
    some (ip.setWidth 32)
  else if [32, 40, 48, 56].contains plen then
    some ((ip >>> (128 - plen - 32)).setWidth 32)
  else if plen = 64 then
    some ((ip >>> 24).setWidth 32)
  else
    none

def embeddedIpv4
    (declared : Str)
    (ip : BitVec 128) : Option (BitVec 32) :=
  ((nat64Prefixes declared).filter (·.contains ip)).findSome?
    (decodeNat64 ip)

/- The address that is judged. -/
def judged (declared : Str) : IpAddress → IpAddress
| .v4 ip => .v4 ip
| .v6 ip scope =>
    match embeddedIpv4 declared ip with
    | some mapped => .v4 mapped
    | none => .v6 ip scope

def blocked (declared ipStr : Str) : Bool :=
  match ipAddress ipStr with
  | none => false
  | some address =>
      let ip := judged declared address
      ip.isPrivate || ip.isLoopback || ip.isLinkLocal ||
        ip.isReserved || ip.isMulticast || ip.isUnspecified

---- Checking A URL

section

/- An address as the resolver writes it. -/
abbrev Address := { s : Str // (ipAddress s).isSome }

/- The answer of `getaddrinfo`: addresses, a `gaierror`, or
a host it does not take. -/
inductive Resolution where
| addresses (ips : List Address)
| failed
| refused
deriving DecidableEq

/- The answers to a host and a port at one time. -/
abbrev Resolver := Str → Nat → Resolution

/- What the guard raises. -/
inductive GuardError where
| unsafeUrl (message : Str)
| valueError
| refused
deriving DecidableEq, Repr

/- `_LOCAL_HOSTNAMES`. -/
def localHostnames : List Str :=
  [lit "localhost", lit "localhost.localdomain",
    lit "ip6-localhost", lit "ip6-loopback"]

/- The message for an address that a host resolves to. -/
def resolvesToBlocked (host ip : Str) : Str :=
  lit "URL resolves to a private or reserved address (" ++
    host ++ lit " -> " ++ ip ++
    lit "). Check DNS on this host: a blocker or internal resolver may be sinkholing this domain."

/- The first blocked address of an answer. -/
def firstBlocked
    (declared : Str)
    (ips : List Address) : Option Address :=
  ips.find? fun ip => blocked declared ip.val

/- `parsed.port or (443 if https else 80)`. -/
def portOf (parsed : Url) : Except GuardError Nat :=
  let default := if parsed.scheme = lit "https" then 443 else 80
  match parsed.port with
  | .error _ => .error .valueError
  | .ok (some port) => .ok (if port = 0 then default else port)
  | .ok none => .ok default

variable [Unicode] [Normalizer]

/- The addresses of a host, `none` on a `gaierror`. -/
def resolveHost
    (dns : Resolver)
    (parsed : Url)
    (host : Str) : Except GuardError (Option (List Address)) := do
  let port ← portOf parsed
  match dns host port with
  | .addresses ips => .ok (some ips)
  | .failed => .ok none
  | .refused => .error .refused

/- `validate_external_url`. The error for a literal address
is a `ValueError`, and is caught with the one that says
that the host is no literal: the host is then resolved. -/
@[grind =]
def validateExternalUrl
    (declared url : Str)
    (allow : Bool)
    (dns : Resolver) : Except GuardError Str := do
  let value := strip url
  match urlparse value with
  | .error _ => .error .valueError
  | .ok parsed =>
      if parsed.scheme ≠ lit "http" ∧
          parsed.scheme ≠ lit "https" then
        .error (.unsafeUrl
          (lit "URL must start with http:// or https://"))
      else
        match parsed.hostname with
        | none => .error (.unsafeUrl (lit "URL has no host"))
        | some host =>
            if allow then
              .ok value
            else if localHostnames.contains
                (Unicode.lower host) then
              .error (.unsafeUrl
                (lit "URL must not target the local host"))
            else if (ipAddress host).isSome &&
                !blocked declared host then
              .ok value
            else do
              match ← resolveHost dns parsed host with
              | none => .ok value
              | some ips =>
                  match firstBlocked declared ips with
                  | some ip =>
                      .error (.unsafeUrl
                        (resolvesToBlocked host ip.val))
                  | none => .ok value

end

---- Sending A Request

section

/- What the client is given to send. -/
structure Request where
  method : Str
  url : Str
  pin : Option Address
  headers : List (Str × Str)
  extensions : List (Str × Str)
  followRedirects : Bool
deriving DecidableEq

/- `mapping.setdefault(key, value)`. -/
def setDefault
    (key value : Str)
    (entries : List (Str × Str)) : List (Str × Str) :=
  if (lookup key entries).isSome then entries
  else entries ++ [(key, value)]

variable [Unicode] [Normalizer]

/- `_safe_connect_ip`: the literal host itself, an address to
pin to, or `none` to connect without pinning. -/
def safeConnectIp
    (declared : Str)
    (parsed : Url)
    (allow : Bool)
    (dns : Resolver) : Except GuardError (Option Address) :=
  let host := parsed.hostname.getD []
  if h : (ipAddress host).isSome then
    .ok (some ⟨host, h⟩)
  else if allow then
    .ok none
  else do
    match ← resolveHost dns parsed host with
    | none => .ok none
    | some ips =>
        match firstBlocked declared ips with
        | some ip =>
            .error (.unsafeUrl
              (resolvesToBlocked host ip.val))
        | none => .ok ips.head?

/- The port as the `Host` header names it. -/
def hostHeader (parsed : Url) (host : Str) :
    Except GuardError Str :=
  let default := if parsed.scheme = lit "https" then 443 else 80
  match parsed.port with
  | .error _ => .error .valueError
  | .ok none => .ok host
  | .ok (some port) =>
      if port = default then .ok host
      else .ok (host ++ cp ':' :: natStr port)

/- The request pinned to an address. -/
def pinTo
    (parsed : Url)
    (host : Str)
    (ip : Address)
    (request : Request) : Except GuardError Request := do
  let header ← hostHeader parsed host
  .ok { request with
    pin := some ip
    headers := setDefault (lit "Host") header request.headers
    extensions :=
      if parsed.scheme = lit "https" then
        setDefault (lit "sni_hostname") host
          request.extensions
      else request.extensions }

/- `safe_request`, up to the request the client sends. -/
def safeRequest
    (declared method url : Str)
    (headers extensions : List (Str × Str))
    (allow : Bool)
    (validating pinning : Resolver) :
    Except GuardError Request := do
  let _ ← validateExternalUrl declared url allow validating
  match urlparse (strip url) with
  | .error _ => .error .valueError
  | .ok parsed => do
      let ip ← safeConnectIp declared parsed allow pinning
      let request : Request :=
        ⟨method, url, none, headers, extensions, false⟩
      match ip with
      | none => .ok request
      | some ip =>
          let host := parsed.hostname.getD []
          if ip.val = host then .ok request
          else pinTo parsed host ip request

/- The client: which requests it takes, and the addresses it
opens connections to, given its own resolution. -/
structure HttpClient where
  accepts : Request → Bool
  connects : Request → Resolution → List Str

/- The host a request names. -/
def Request.host (r : Request) : Option Str :=
  match urlparse (strip r.url) with
  | .ok parsed => parsed.hostname
  | .error _ => none

/- The addresses of an answer. -/
def Resolution.texts : Resolution → List Str
| .addresses ips => ips.map Subtype.val
| _ => []

/- The client connects to the address of the request, or else
to the literal host, or else to what the host resolves to. -/
structure HttpClient.Documented (client : HttpClient) : Prop where
  rejected :
    ∀ r answer, client.accepts r = false →
      client.connects r answer = []
  pinned :
    ∀ r answer ip, client.accepts r = true →
      r.pin = some ip → client.connects r answer = [ip.val]
  literal :
    ∀ r answer host, client.accepts r = true →
      r.pin = none → r.host = some host →
        (ipAddress host).isSome →
          client.connects r answer = [host]
  named :
    ∀ r answer host, client.accepts r = true →
      r.pin = none → r.host = some host →
        ipAddress host = none →
          client.connects r answer = answer.texts

/- The addresses a request opens connections to. -/
def opened
    (client : HttpClient)
    (sent : Except GuardError Request)
    (connecting : Resolution) : List Str :=
  match sent with
  | .ok request => client.connects request connecting
  | .error _ => []

end

---- What Gets Past The Guard

section

variable [Unicode] [Normalizer]

/- An answer the validation lets pass. -/
def Resolution.admitted
    (declared : Str) : Resolution → Bool
| .addresses ips => ips.all fun ip => !blocked declared ip.val
| .failed => true
| .refused => false

/- An answer that leaves the request without a pin. -/
def Resolution.unpinned : Resolution → Bool
| .addresses ips => ips.isEmpty
| .failed => true
| .refused => false

/- The answers of the resolver under which a blocked address
is reached. Either the host is a blocked literal, which
the validation resolves without meeting a blocked address;
or it is a name that the validation lets pass, the pinning
yields no address, and the client resolves the name to a
blocked one. -/
structure Exposed
    (declared url : Str)
    (client : HttpClient)
    (request : Request)
    (validating pinning : Resolver)
    (connecting : Resolution)
    (parsed : Url)
    (host : Str)
    (port : Nat) : Prop where
  parses : urlparse (strip url) = .ok parsed
  scheme :
    parsed.scheme = lit "http" ∨ parsed.scheme = lit "https"
  named : parsed.hostname = some host
  remote :
    localHostnames.contains (Unicode.lower host) = false
  ported : portOf parsed = .ok port
  admitted : (validating host port).admitted declared = true
  accepted : client.accepts request = true
  reached :
    blocked declared host = true ∨
      (ipAddress host = none ∧
        (pinning host port).unpinned = true ∧
        ∃ ip ∈ connecting.texts, blocked declared ip = true)

omit [Unicode] [Normalizer] in
/- A blocked text is the text of an address. -/
theorem isSome_of_blocked
    {declared host : Str}
    (hBlocked : blocked declared host = true) :
    (ipAddress host).isSome := by
  unfold blocked at hBlocked
  cases hAddress : ipAddress host with
  | none => simp [hAddress] at hBlocked
  | some ip => rfl

omit [Unicode] [Normalizer] in
theorem firstBlocked_none_iff
    (declared : Str) (ips : List Address) :
    firstBlocked declared ips = none ↔
      (Resolution.addresses ips).admitted declared = true := by
  unfold firstBlocked Resolution.admitted
  rw [List.find?_eq_none, List.all_eq_true]
  constructor
  · intro hNone ip hIp
    simpa using hNone ip hIp
  · intro hAll ip hIp
    simpa using hAll ip hIp

/- The validation of a host, once the URL is parsed. -/
theorem validate_ok_iff
    {declared url : Str} {dns : Resolver} {parsed : Url}
    {host : Str}
    (hParse : urlparse (strip url) = .ok parsed)
    (hScheme :
      parsed.scheme = lit "http" ∨
        parsed.scheme = lit "https")
    (hHost : parsed.hostname = some host)
    (hRemote :
      localHostnames.contains (Unicode.lower host) = false) :
    (∃ value,
        validateExternalUrl declared url false dns =
          .ok value) ↔
      ((ipAddress host).isSome ∧
          blocked declared host = false) ∨
        ∃ port, portOf parsed = .ok port ∧
          (dns host port).admitted declared = true := by
  have hHttp : ¬ (parsed.scheme ≠ lit "http" ∧
      parsed.scheme ≠ lit "https") := by
    rcases hScheme with h | h
    · exact fun hBoth => hBoth.1 h
    · exact fun hBoth => hBoth.2 h
  unfold validateExternalUrl
  simp only [hParse, hHttp, if_false, hHost, hRemote,
    Bool.false_eq_true]
  cases hLiteral : (ipAddress host).isSome &&
      !blocked declared host with
  | true =>
      rw [Bool.and_eq_true, Bool.not_eq_true'] at hLiteral
      simp [hLiteral]
  | false =>
      have hNot : ¬ ((ipAddress host).isSome = true ∧
          blocked declared host = false) := by
        rintro ⟨hSome, hFree⟩
        simp [hSome, hFree] at hLiteral
      simp only [Bool.false_eq_true, if_false, hNot, false_or]
      unfold resolveHost
      cases hPort : portOf parsed with
      | error err => simp [bind, Except.bind]
      | ok port =>
          simp only [bind, Except.bind, Except.ok.injEq,
            exists_eq_left']
          cases hAnswer : dns host port with
          | failed => simp [Resolution.admitted]
          | refused => simp [Resolution.admitted]
          | addresses ips =>
              rw [← firstBlocked_none_iff]
              cases hFirst : firstBlocked declared ips with
              | none => simp [hFirst]
              | some ip => simp [hFirst]

/- What a URL that the validation lets pass looks like. -/
theorem form_of_validated
    {declared url value : Str} {dns : Resolver}
    (hValid :
      validateExternalUrl declared url false dns =
        .ok value) :
    ∃ parsed host,
      urlparse (strip url) = .ok parsed ∧
      (parsed.scheme = lit "http" ∨
        parsed.scheme = lit "https") ∧
      parsed.hostname = some host ∧
      localHostnames.contains (Unicode.lower host) = false := by
  unfold validateExternalUrl at hValid
  cases hParse : urlparse (strip url) with
  | error err => simp [hParse] at hValid
  | ok parsed =>
      simp only [hParse] at hValid
      split at hValid
      · cases hValid
      · rename_i hScheme
        cases hHost : parsed.hostname with
        | none => simp [hHost] at hValid
        | some host =>
            simp only [hHost, Bool.false_eq_true,
              if_false] at hValid
            refine ⟨parsed, host, rfl, ?_, hHost, ?_⟩
            · rw [not_and_or, not_not, not_not] at hScheme
              exact hScheme
            · cases hLocal : localHostnames.contains
                (Unicode.lower host) with
              | false => rfl
              | true =>
                  rw [if_pos hLocal] at hValid
                  cases hValid

/- What is not validated opens nothing. -/
theorem opened_of_invalid
    (client : HttpClient) {declared url : Str} (method : Str)
    (headers extensions : List (Str × Str)) {validating : Resolver}
    (pinning : Resolver) (connecting : Resolution)
    (hInvalid :
      ¬ ∃ value,
        validateExternalUrl declared url false validating =
          .ok value) :
    opened client
        (safeRequest declared method url headers extensions
          false validating pinning) connecting = [] := by
  unfold safeRequest
  cases hValid :
      validateExternalUrl declared url false validating with
  | error err => rfl
  | ok value => exact absurd ⟨value, hValid⟩ hInvalid

/- What a validated request sends. -/
theorem safeRequest_of_valid
    {declared url : Str}
    (method : Str) (headers extensions : List (Str × Str))
    {validating : Resolver}
    (pinning : Resolver) {parsed : Url} {host : Str}
    (hParse : urlparse (strip url) = .ok parsed)
    (hHost : parsed.hostname = some host)
    (hValid :
      ∃ value,
        validateExternalUrl declared url false validating =
          .ok value) :
    safeRequest declared method url headers extensions false
        validating pinning =
      (safeConnectIp declared parsed false pinning).bind
        fun ip =>
          match ip with
          | none =>
              .ok ⟨method, url, none, headers, extensions,
                false⟩
          | some ip =>
              if ip.val = host then
                .ok ⟨method, url, none, headers, extensions,
                  false⟩
              else
                pinTo parsed host ip
                  ⟨method, url, none, headers, extensions,
                    false⟩ := by
  rcases hValid with ⟨value, hValid⟩
  unfold safeRequest
  simp only [hValid, hParse, hHost, Option.getD_some]
  rfl

/- A literal host is connected to as it is. -/
theorem opened_of_literal
    {client : HttpClient}
    (hClient : client.Documented) {declared url : Str}
    (method : Str) (headers extensions : List (Str × Str))
    {validating : Resolver}
    (pinning : Resolver) (connecting : Resolution)
    {parsed : Url} {host : Str}
    (hParse : urlparse (strip url) = .ok parsed)
    (hHost : parsed.hostname = some host)
    (hValid :
      ∃ value,
        validateExternalUrl declared url false validating =
          .ok value)
    (hLiteral : (ipAddress host).isSome) :
    opened client
        (safeRequest declared method url headers extensions
          false validating pinning) connecting =
      if client.accepts
          ⟨method, url, none, headers, extensions, false⟩ then
        [host]
      else [] := by
  have hConnect :
      safeConnectIp declared parsed false pinning =
        .ok (some ⟨host, hLiteral⟩) := by
    unfold safeConnectIp
    simp [hHost, hLiteral]
  rw [safeRequest_of_valid method headers extensions pinning
    hParse hHost hValid, hConnect]
  simp only [Except.bind, if_true, opened]
  cases hAccepts : client.accepts
      ⟨method, url, none, headers, extensions, false⟩ with
  | false =>
      rw [hClient.rejected _ _ hAccepts]
      simp
  | true =>
      have hSame : Request.host
          ⟨method, url, none, headers, extensions, false⟩ =
            some host := by
        simp [Request.host, hParse, hHost]
      rw [hClient.literal _ _ host hAccepts rfl hSame
        hLiteral]
      simp

/- A name without a pin is resolved by the client. -/
theorem opened_of_unpinned
    {client : HttpClient}
    (hClient : client.Documented) {declared url : Str}
    (method : Str) (headers extensions : List (Str × Str))
    {validating pinning : Resolver}
    (connecting : Resolution)
    {parsed : Url} {host : Str} {port : Nat}
    (hParse : urlparse (strip url) = .ok parsed)
    (hHost : parsed.hostname = some host)
    (hValid :
      ∃ value,
        validateExternalUrl declared url false validating =
          .ok value)
    (hName : ipAddress host = none)
    (hPort : portOf parsed = .ok port)
    (hUnpinned : (pinning host port).unpinned = true) :
    opened client
        (safeRequest declared method url headers extensions
          false validating pinning) connecting =
      if client.accepts
          ⟨method, url, none, headers, extensions, false⟩ then
        connecting.texts
      else [] := by
  have hConnect :
      safeConnectIp declared parsed false pinning =
        .ok none := by
    unfold safeConnectIp resolveHost
    simp only [hHost, Option.getD_some, hName, hPort, bind,
      Except.bind, Option.isSome_none, Bool.false_eq_true,
      dite_false, if_false]
    cases hAnswer : pinning host port with
    | failed => rfl
    | refused => simp [hAnswer, Resolution.unpinned] at hUnpinned
    | addresses ips =>
        have hEmpty : ips = [] := by
          simpa [hAnswer, Resolution.unpinned] using hUnpinned
        subst hEmpty
        rfl
  rw [safeRequest_of_valid method headers extensions pinning
    hParse hHost hValid, hConnect]
  simp only [Except.bind, opened]
  cases hAccepts : client.accepts
      ⟨method, url, none, headers, extensions, false⟩ with
  | false =>
      rw [hClient.rejected _ _ hAccepts]
      simp
  | true =>
      have hSame : Request.host
          ⟨method, url, none, headers, extensions, false⟩ =
            some host := by
        simp [Request.host, hParse, hHost]
      rw [hClient.named _ _ host hAccepts rfl hSame hName]
      simp

omit [Unicode] [Normalizer] in
/- The request keeps its pin. -/
theorem pin_of_pinTo
    {parsed : Url} {host : Str} {ip : Address}
    {request pinned : Request}
    (hPinned : pinTo parsed host ip request = .ok pinned) :
    pinned.pin = some ip := by
  unfold pinTo at hPinned
  cases hHeader : hostHeader parsed host with
  | error err => simp [hHeader, bind, Except.bind] at hPinned
  | ok header =>
      simp only [hHeader, bind, Except.bind,
        Except.ok.injEq] at hPinned
      rw [← hPinned]

/- A name whose pinning yields addresses is connected to the
first of them. -/
theorem safe_of_pinned
    {client : HttpClient}
    (hClient : client.Documented) {declared url : Str}
    (method : Str) (headers extensions : List (Str × Str))
    {validating pinning : Resolver}
    (connecting : Resolution)
    {parsed : Url} {host : Str} {port : Nat}
    (hParse : urlparse (strip url) = .ok parsed)
    (hHost : parsed.hostname = some host)
    (hValid :
      ∃ value,
        validateExternalUrl declared url false validating =
          .ok value)
    (hName : ipAddress host = none)
    (hPort : portOf parsed = .ok port)
    (hPinned : (pinning host port).unpinned = false) :
    ∀ address ∈ opened client
        (safeRequest declared method url headers extensions
          false validating pinning) connecting,
      blocked declared address = false := by
  intro address hAddress
  rw [safeRequest_of_valid method headers extensions pinning
    hParse hHost hValid] at hAddress
  unfold safeConnectIp resolveHost at hAddress
  simp only [hHost, Option.getD_some, hName, hPort, bind,
    Except.bind, Option.isSome_none, Bool.false_eq_true,
    dite_false, if_false] at hAddress
  cases hAnswer : pinning host port with
  | failed => simp [hAnswer, Resolution.unpinned] at hPinned
  | refused => simp [hAnswer, opened] at hAddress
  | addresses ips =>
      simp only [hAnswer] at hAddress
      cases hFirst : firstBlocked declared ips with
      | some ip => simp [hFirst, opened] at hAddress
      | none =>
          cases ips with
          | nil => simp [hAnswer, Resolution.unpinned] at hPinned
          | cons ip rest =>
              simp only [hFirst, List.head?_cons] at hAddress
              -- The literal would be its own host.
              have hOther : ip.val ≠ host := by
                intro hSame
                have hSome := ip.property
                rw [hSame, hName] at hSome
                simp at hSome
              rw [if_neg hOther] at hAddress
              have hFree : blocked declared ip.val = false := by
                have hAll :=
                  (firstBlocked_none_iff declared
                    (ip :: rest)).mp hFirst
                simp only [Resolution.admitted, List.all_cons,
                  Bool.and_eq_true, Bool.not_eq_true'] at hAll
                exact hAll.1
              generalize hSent : pinTo parsed host ip _ = sent
                at hAddress
              cases sent with
              | error err => simp [opened] at hAddress
              | ok pinned =>
                  simp only [opened] at hAddress
                  cases hAccepts : client.accepts pinned with
                  | false =>
                      rw [hClient.rejected _ _ hAccepts]
                        at hAddress
                      cases hAddress
                  | true =>
                      rw [hClient.pinned _ _ ip hAccepts
                        (pin_of_pinTo hSent),
                        List.mem_singleton] at hAddress
                      rw [hAddress]
                      exact hFree

/- A request reaches no blocked address, unless the answers
of the resolver expose one. -/
theorem safeRequest_guarded_iff
    {client : HttpClient}
    (hClient : client.Documented)
    (declared method url : Str)
    (headers extensions : List (Str × Str))
    (validating pinning : Resolver)
    (connecting : Resolution) :
    (∀ address ∈ opened client
        (safeRequest declared method url headers extensions
          false validating pinning) connecting,
      blocked declared address = false) ↔
      ¬ ∃ parsed host port,
        Exposed declared url client
          ⟨method, url, none, headers, extensions, false⟩
          validating pinning connecting parsed host port := by
  constructor
  · rintro hSafe ⟨parsed, host, port, hExposed⟩
    have hValid := (validate_ok_iff hExposed.parses
      hExposed.scheme hExposed.named hExposed.remote).mpr
        (Or.inr ⟨port, hExposed.ported, hExposed.admitted⟩)
    rcases hExposed.reached with
      hLiteral | ⟨hName, hUnpinned, ip, hIp, hBlocked⟩
    · rw [opened_of_literal hClient method headers extensions
        pinning connecting hExposed.parses hExposed.named
        hValid (isSome_of_blocked hLiteral),
        if_pos hExposed.accepted] at hSafe
      have hFree := hSafe host (by simp)
      rw [hLiteral] at hFree
      cases hFree
    · rw [opened_of_unpinned hClient method headers extensions
        connecting hExposed.parses hExposed.named hValid hName
        hExposed.ported hUnpinned,
        if_pos hExposed.accepted] at hSafe
      have hFree := hSafe ip hIp
      rw [hBlocked] at hFree
      cases hFree
  · intro hGuarded
    by_cases hValid : ∃ value,
        validateExternalUrl declared url false validating =
          .ok value
    · rcases form_of_validated hValid.choose_spec with
        ⟨parsed, host, hParse, hScheme, hHost, hRemote⟩
      have hCases := (validate_ok_iff hParse hScheme hHost
        hRemote).mp hValid
      cases hLiteral : (ipAddress host).isSome with
      | true =>
          rw [opened_of_literal hClient method headers
            extensions pinning connecting hParse hHost hValid
            hLiteral]
          intro address hAddress
          split at hAddress
          · rename_i hAccepts
            rw [List.mem_singleton] at hAddress
            rw [hAddress]
            rcases hCases with
              ⟨_, hFree⟩ | ⟨port, hPort, hAdmitted⟩
            · exact hFree
            · by_contra hBlocked
              exact hGuarded ⟨parsed, host, port, hParse,
                hScheme, hHost, hRemote, hPort, hAdmitted,
                hAccepts, Or.inl (by simpa using hBlocked)⟩
          · cases hAddress
      | false =>
          have hName : ipAddress host = none := by
            simpa using hLiteral
          rcases hCases with
            ⟨hSome, _⟩ | ⟨port, hPort, hAdmitted⟩
          · rw [hLiteral] at hSome
            cases hSome
          · cases hUnpinned : (pinning host port).unpinned with
            | false =>
                exact safe_of_pinned hClient method headers
                  extensions connecting hParse hHost hValid
                  hName hPort hUnpinned
            | true =>
                rw [opened_of_unpinned hClient method headers
                  extensions connecting hParse hHost hValid
                  hName hPort hUnpinned]
                intro address hAddress
                split at hAddress
                · rename_i hAccepts
                  by_contra hBlocked
                  exact hGuarded ⟨parsed, host, port, hParse,
                    hScheme, hHost, hRemote, hPort, hAdmitted,
                    hAccepts, Or.inr ⟨hName, hUnpinned, address,
                      hAddress, by simpa using hBlocked⟩⟩
                · cases hAddress
    · rw [opened_of_invalid client method headers extensions
        pinning connecting hValid]
      intro address hAddress
      cases hAddress

end

---- A Name That Rebinds

local instance guardUnicode : Unicode := asciiTables

local instance guardNormalizer : Normalizer := ⟨id⟩

/- A client that takes every request. -/
def plainClient : HttpClient where
  accepts _ := true
  connects r answer :=
    match r.pin, r.host with
    | some ip, _ => [ip.val]
    | none, some host =>
        if (ipAddress host).isSome then [host]
        else answer.texts
    | none, none => []

theorem plainClient_documented :
    plainClient.Documented where
  rejected r answer hAccepts := by
    simp [plainClient] at hAccepts
  pinned r answer ip _ hPin := by
    simp [plainClient, hPin]
  literal r answer host _ hPin hHost hLiteral := by
    simp [plainClient, hPin, hHost, hLiteral]
  named r answer host _ hPin hHost hName := by
    simp [plainClient, hPin, hHost, hName]

/- An address anyone may reach. -/
def outside : Address :=
  ⟨lit "93.184.216.34", by decide⟩

/- The address of the host itself. -/
def loopback : Address :=
  ⟨lit "127.0.0.1", by decide⟩

/- A resolver that answers with one address. -/
def answering (ip : Address) : Resolver :=
  fun _ _ => .addresses [ip]

/- A resolver that does not answer. -/
def silent : Resolver :=
  fun _ _ => .failed

/- The address of a feed. -/
def feedUrl : Str :=
  lit "http://feed.test/list"

/- A feed that is pinned reaches no blocked address, however
the client would resolve it. -/
theorem pinned_feed_guarded :
    (opened plainClient
        (safeRequest [] (lit "GET") feedUrl [] [] false
          (answering outside) (answering outside))
        (.addresses [loopback])).all
      (fun address => !blocked [] address) = true := by
  simp only [List.all_eq_true, Bool.not_eq_true']
  apply (safeRequest_guarded_iff plainClient_documented []
    (lit "GET") feedUrl [] [] (answering outside)
    (answering outside) (.addresses [loopback])).mpr
  rintro ⟨parsed, host, port, hExposed⟩
  have hParsed :
      urlparse (strip feedUrl) =
        .ok ⟨lit "http", lit "feed.test"⟩ := by
    decide
  have hSame := hExposed.parses
  rw [hParsed, Except.ok.injEq] at hSame
  have hHost := hExposed.named
  rw [← hSame] at hHost
  rcases hExposed.reached with
    hLiteral | ⟨_, hUnpinned, _⟩
  · have hOwn : Url.hostname ⟨lit "http", lit "feed.test"⟩ =
        some (lit "feed.test") := by
      decide
    rw [hOwn, Option.some.injEq] at hHost
    rw [← hHost] at hLiteral
    have hFree : blocked [] (lit "feed.test") = false := by
      decide
    rw [hFree] at hLiteral
    cases hLiteral
  · simp [answering, Resolution.unpinned] at hUnpinned

/- A name that passes the validation, is not resolved by the
pinning, and then resolves to the host itself. -/
theorem rebound_feed_reached :
    plainClient.Documented ∧
      ¬ ∀ (validating pinning : Resolver)
          (connecting : Resolution),
        ∀ address ∈ opened plainClient
            (safeRequest [] (lit "GET") feedUrl [] [] false
              validating pinning) connecting,
          blocked [] address = false := by
  refine ⟨plainClient_documented, ?_⟩
  intro hSafe
  have hFree := hSafe (answering outside) silent
    (.addresses [loopback]) loopback.val (by decide)
  have hBlocked : blocked [] loopback.val = true := by
    decide
  rw [hBlocked] at hFree
  cases hFree

end ThreatOrbit.Net
