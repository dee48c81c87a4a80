import ThreatOrbit.Net.Guard

/-
  The requests that fetch a feed.

  A feed is requested from its URL and from where its server
  redirects to. Each URL is validated, and its host is then
  resolved once more by the client, which pins nothing.
-/

---- Following Redirects

namespace ThreatOrbit.Net

open Lib

section

/- What a server answers: a redirect with its `Location`, or
anything that ends the fetch. -/
inductive FeedResponse where
| redirect (location : Option Str)
| final
deriving DecidableEq

/- One turn of the loop: the answers of the resolver to the
validation and to the client, and the answer of the server. -/
structure Hop where
  validating : Resolver
  connecting : Resolution
  response : FeedResponse

/- The deployment: the NAT64 prefixes it declares, whether it
allows private URLs, its companion service, the client, and
how the client joins a URL and a location. -/
structure FeedDeployment where
  declared : Str
  allowPrivate : Bool
  threatApiUrl : Str
  client : HttpClient
  join : Str → Str → Option Str

/- `_MAX_REDIRECTS`. -/
def maxRedirects : Nat := 5

def isCompanion (d : FeedDeployment) (url : Str) : Bool :=
  let base :=
    (d.threatApiUrl.reverse.dropWhile (· == cp '/')).reverse
  base != [] &&
    (url == base || (base ++ [cp '/']).isPrefixOf url)

/- A request for a feed, with what let it pass. -/
structure Fetch where
  request : Request
  allow : Bool
  validating : Resolver
  connecting : Resolution

/- The request of a feed, which is not pinned. -/
def feedRequest
    (url : Str)
    (headers : List (Str × Str)) : Request :=
  ⟨lit "GET", url, none, headers, [], false⟩

/- The addresses that a fetch opens connections to. -/
def Fetch.opened (f : Fetch) (client : HttpClient) : List Str :=
  client.connects f.request f.connecting

variable [Unicode] [Normalizer]

/- The loop of `_read_capped` after so many turns, with as
many left as the first argument says: the requests it
issues. -/
@[grind =]
def readCapped
    (d : FeedDeployment)
    (headers : List (Str × Str))
    (hops : Nat → Hop) :
    Nat → Nat → Str → Bool → List Fetch
| 0, _, _, _ => []
| left + 1, i, current, allow =>
    let hop := hops i
    let request := feedRequest current headers
    ⟨request, allow, hop.validating, hop.connecting⟩ ::
      match d.client.accepts request, hop.response with
      | true, .redirect (some (c :: location)) =>
          match d.join current (c :: location) with
          | none => []
          | some next =>
              match validateExternalUrl d.declared next
                  d.allowPrivate (hops (i + 1)).validating with
              | .error _ => []
              | .ok _ =>
                  readCapped d headers hops left (i + 1) next
                    d.allowPrivate
      | _, _ => []

/- `_http_get`: the requests it issues. -/
@[grind =]
def httpGet
    (d : FeedDeployment)
    (url : Str)
    (headers : List (Str × Str))
    (hops : Nat → Hop) : List Fetch :=
  let allow := isCompanion d url || d.allowPrivate
  match validateExternalUrl d.declared url allow
      (hops 0).validating with
  | .error _ => []
  | .ok _ =>
      readCapped d headers hops (maxRedirects + 1) 0 url allow

/- What exposes a fetch: the client takes its request, and
either its host is a blocked literal or it is a name that
the client resolves to a blocked address; where private
URLs are not allowed, the validation has met no blocked
address among those it resolved the host to. -/
structure Fetch.Exposed
    (d : FeedDeployment)
    (f : Fetch)
    (parsed : Url)
    (host : Str) : Prop where
  parses : urlparse (strip f.request.url) = .ok parsed
  named : parsed.hostname = some host
  accepted : d.client.accepts f.request = true
  overlooked :
    d.allowPrivate = false → ∃ port, portOf parsed = .ok port ∧
      (f.validating host port).admitted d.declared = true
  reached :
    blocked d.declared host = true ∨
      (ipAddress host = none ∧
        ∃ ip ∈ f.connecting.texts, blocked d.declared ip = true)

end

---- What A Fetch Reaches

section

variable [Unicode] [Normalizer]
variable {d : FeedDeployment}

/- A fetch that was issued, of a URL that was let pass: the
companion's, or as the deployment allows. -/
structure Fetch.Issued (d : FeedDeployment) (f : Fetch) : Prop where
  plain : f.request.pin = none
  validated : ∃ value,
    validateExternalUrl d.declared f.request.url f.allow
      f.validating = .ok value
  allowed :
    isCompanion d f.request.url = false →
      f.allow = d.allowPrivate

theorem readCapped_length
    (headers : List (Str × Str)) (hops : Nat → Hop) (left i : Nat)
    (current : Str) (allow : Bool) :
    (readCapped d headers hops left i current allow).length ≤
      left := by
  induction left generalizing i current allow with
  | zero => exact le_refl _
  | succ left ih =>
      rw [readCapped, List.length_cons, Nat.add_le_add_iff_right]
      split
      · split
        · exact Nat.zero_le _
        · split
          · exact Nat.zero_le _
          · exact ih _ _ _
      · exact Nat.zero_le _

theorem readCapped_issued
    {headers : List (Str × Str)} {hops : Nat → Hop} {left i : Nat}
    {current : Str} {allow : Bool}
    (hValid : ∃ value,
      validateExternalUrl d.declared current allow
        (hops i).validating = .ok value)
    (hAllow :
      isCompanion d current = false → allow = d.allowPrivate) :
    ∀ f ∈ readCapped d headers hops left i current allow,
      f.Issued d := by
  induction left generalizing i current allow with
  | zero => simp [readCapped]
  | succ left ih =>
      rw [readCapped, List.forall_mem_cons]
      refine ⟨⟨rfl, hValid, hAllow⟩, ?_⟩
      split
      · split
        · simp
        · rename_i next hNext
          split
          · simp
          · rename_i value hNextValid
            exact ih ⟨value, hNextValid⟩ fun _ => rfl
      · simp

/- Every request of a fetch is of a URL that was validated. -/
theorem httpGet_issued
    {url : Str} {headers : List (Str × Str)} {hops : Nat → Hop} :
    ∀ f ∈ httpGet d url headers hops, f.Issued d := by
  unfold httpGet
  simp only
  split
  · simp
  · rename_i value hValid
    refine readCapped_issued ⟨value, hValid⟩ ?_
    intro hOther
    rw [hOther, Bool.false_or]

/- A fetch issues a request for each redirect it follows, and
one more. -/
theorem httpGet_length
    (url : Str) (headers : List (Str × Str)) (hops : Nat → Hop) :
    (httpGet d url headers hops).length ≤ maxRedirects + 1 := by
  unfold httpGet
  simp only
  split
  · exact Nat.zero_le _
  · exact readCapped_length _ _ _ _ _ _

/- A URL that was let pass has a host. -/
theorem host_of_validated
    {declared url value : Str} {allow : Bool} {dns : Resolver}
    (hValid :
      validateExternalUrl declared url allow dns = .ok value) :
    ∃ parsed host, urlparse (strip url) = .ok parsed ∧
      parsed.hostname = some host := by
  cases allow with
  | false =>
      rcases form_of_validated hValid with
        ⟨parsed, host, hParse, _, hHost, _⟩
      exact ⟨parsed, host, hParse, hHost⟩
  | true =>
      unfold validateExternalUrl at hValid
      cases hParse : urlparse (strip url) with
      | error err => simp [hParse] at hValid
      | ok parsed =>
          simp only [hParse] at hValid
          split at hValid
          · cases hValid
          · cases hHost : parsed.hostname with
            | none => simp [hHost] at hValid
            | some host => exact ⟨parsed, host, rfl, hHost⟩

/- What the validation has met of a host that is a name or a
blocked literal. -/
theorem admitted_of_validated
    {declared url value host : Str} {dns : Resolver} {parsed : Url}
    (hValid :
      validateExternalUrl declared url false dns = .ok value)
    (hParse : urlparse (strip url) = .ok parsed)
    (hHost : parsed.hostname = some host)
    (hReached :
      blocked declared host = true ∨ ipAddress host = none) :
    ∃ port, portOf parsed = .ok port ∧
      (dns host port).admitted declared = true := by
  rcases form_of_validated hValid with
    ⟨parsed', host', hParse', hScheme, hHost', hRemote⟩
  rw [hParse] at hParse'
  cases hParse'
  rw [hHost] at hHost'
  cases hHost'
  rcases (validate_ok_iff hParse hScheme hHost hRemote).mp
    ⟨value, hValid⟩ with ⟨hLiteral, hFree⟩ | hAdmitted
  · rcases hReached with hBlocked | hName
    · rw [hFree] at hBlocked
      cases hBlocked
    · rw [hName] at hLiteral
      cases hLiteral
  · exact hAdmitted

/- What the client connects to for a request that is not
pinned. -/
theorem connects_unpinned
    {client : HttpClient}
    (hClient : client.Documented)
    {r : Request} {answer : Resolution} {host : Str}
    (hAccepts : client.accepts r = true) (hPlain : r.pin = none)
    (hHost : r.host = some host) :
    client.connects r answer =
      if (ipAddress host).isSome then [host]
      else answer.texts := by
  split
  · rename_i hLiteral
    exact hClient.literal r answer host hAccepts hPlain hHost
      hLiteral
  · rename_i hName
    rw [Bool.not_eq_true, Option.isSome_eq_false_iff,
      Option.isNone_iff_eq_none] at hName
    exact hClient.named r answer host hAccepts hPlain hHost
      hName

/- A fetch that is not for the companion opens no connection
to a blocked address unless it is exposed. -/
theorem opened_guarded_iff
    (hClient : d.client.Documented) {f : Fetch}
    (hIssued : f.Issued d)
    (hOther : isCompanion d f.request.url = false) :
    (∀ address ∈ f.opened d.client,
        blocked d.declared address = false) ↔
      ¬ ∃ parsed host, f.Exposed d parsed host := by
  rcases hIssued.validated with ⟨value, hValid⟩
  rw [hIssued.allowed hOther] at hValid
  rcases host_of_validated hValid with
    ⟨parsed, host, hParse, hHost⟩
  have hNamed : f.request.host = some host := by
    simp [Request.host, hParse, hHost]
  unfold Fetch.opened
  cases hAccepts : d.client.accepts f.request with
  | false =>
      rw [hClient.rejected _ _ hAccepts]
      constructor
      · rintro - ⟨_, _, hExposed⟩
        rw [hExposed.accepted] at hAccepts
        cases hAccepts
      · intro _ address hAddress
        cases hAddress
  | true =>
      rw [connects_unpinned hClient hAccepts hIssued.plain
        hNamed]
      constructor
      · rintro hSafe ⟨parsed', host', hExposed⟩
        have hParse' := hExposed.parses
        rw [hParse] at hParse'
        cases hParse'
        have hHost' := hExposed.named
        rw [hHost] at hHost'
        cases hHost'
        rcases hExposed.reached with
          hBlocked | ⟨hName, ip, hIp, hBlocked⟩
        · rw [if_pos (isSome_of_blocked hBlocked)] at hSafe
          rw [hSafe host List.mem_cons_self] at hBlocked
          cases hBlocked
        · rw [if_neg (by simp [hName])] at hSafe
          rw [hSafe ip hIp] at hBlocked
          cases hBlocked
      · intro hGuarded address hAddress
        by_contra hBlocked
        rw [Bool.not_eq_false] at hBlocked
        apply hGuarded
        split at hAddress
        · rw [List.mem_singleton] at hAddress
          rw [hAddress] at hBlocked
          refine ⟨parsed, host, hParse, hHost, hAccepts, ?_,
            .inl hBlocked⟩
          intro hAllow
          rw [hAllow] at hValid
          exact admitted_of_validated hValid hParse hHost
            (.inl hBlocked)
        · rename_i hName
          rw [Bool.not_eq_true, Option.isSome_eq_false_iff,
            Option.isNone_iff_eq_none] at hName
          refine ⟨parsed, host, hParse, hHost, hAccepts, ?_,
            .inr ⟨hName, address, hAddress, hBlocked⟩⟩
          intro hAllow
          rw [hAllow] at hValid
          exact admitted_of_validated hValid hParse hHost
            (.inr hName)

/- A fetch of a feed, whatever its server and the resolver
answer, issues no more requests than its redirects allow;
and those that are not for the companion reach no blocked
address exactly when none of them is exposed. -/
theorem httpGet_guarded_iff
    (hClient : d.client.Documented)
    (url : Str)
    (headers : List (Str × Str))
    (hops : Nat → Hop) :
    (httpGet d url headers hops).length ≤ maxRedirects + 1 ∧
      ((∀ f ∈ httpGet d url headers hops,
          isCompanion d f.request.url = false →
            ∀ address ∈ f.opened d.client,
              blocked d.declared address = false) ↔
        ∀ f ∈ httpGet d url headers hops,
          isCompanion d f.request.url = false →
            ¬ ∃ parsed host, f.Exposed d parsed host) := by
  refine ⟨httpGet_length url headers hops, ?_⟩
  apply forall_congr'
  intro f
  apply forall_congr'
  intro hF
  apply imp_congr_right
  intro hOther
  exact opened_guarded_iff hClient (httpGet_issued f hF) hOther

end

---- A Feed Whose Name Rebinds

local instance feedsUnicode : Unicode := asciiTables

local instance feedsNormalizer : Normalizer := ⟨id⟩

/- A deployment on one host, with its companion there. -/
def officeFeeds : FeedDeployment where
  declared := []
  allowPrivate := false
  threatApiUrl := lit "http://127.0.0.1:8000"
  client := plainClient
  join _ location := some location

/- The feed answers at once; the client resolves its name to
an address. -/
def answeredBy (ip : Address) (_ : Nat) : Hop :=
  ⟨answering outside, .addresses [ip], .final⟩

theorem feedUrl_validated :
    validateExternalUrl [] feedUrl false (answering outside) =
      .ok feedUrl := by
  decide

theorem feedUrl_foreign :
    isCompanion officeFeeds feedUrl = false := by
  decide

theorem httpGet_feedUrl
    (ip : Address) :
    httpGet officeFeeds feedUrl [] (answeredBy ip) =
      [⟨feedRequest feedUrl [], false, answering outside,
        .addresses [ip]⟩] := by
  unfold httpGet
  simp only [feedUrl_foreign, Bool.false_or]
  rw [show validateExternalUrl officeFeeds.declared feedUrl
      officeFeeds.allowPrivate (answeredBy ip 0).validating =
        .ok feedUrl from feedUrl_validated]
  rfl

theorem feedUrl_opened
    (ip : Address) :
    plainClient.connects (feedRequest feedUrl [])
      (.addresses [ip]) = [ip.val] := by
  have hHost : (feedRequest feedUrl []).host =
      some (lit "feed.test") := by
    decide
  have hName : ipAddress (lit "feed.test") = none := by
    decide
  rw [connects_unpinned plainClient_documented rfl rfl hHost,
    hName]
  rfl

theorem steady_feed_free :
    blocked [] outside.val = false := by
  decide

/- A feed whose name stays where it was is guarded. -/
theorem steady_feed_guarded :
    ((httpGet officeFeeds feedUrl [] (answeredBy outside)).all
      fun f => (f.opened plainClient).all
        fun address => !blocked [] address) = true := by
  have hSafe := (httpGet_guarded_iff plainClient_documented
    feedUrl [] (answeredBy outside)
    (d := officeFeeds)).2.mpr ?_
  · simp only [List.all_eq_true, Bool.not_eq_true']
    intro f hF
    have hIs := hF
    rw [httpGet_feedUrl, List.mem_singleton] at hIs
    exact hSafe f hF (by rw [hIs]; exact feedUrl_foreign)
  · intro f hF _
    rw [httpGet_feedUrl, List.mem_singleton] at hF
    rintro ⟨parsed, host, hExposed⟩
    subst hF
    have hParsed :
        urlparse (strip feedUrl) =
          .ok ⟨lit "http", lit "feed.test"⟩ := by
      decide
    have hSame := hExposed.parses
    rw [show (feedRequest feedUrl []).url = feedUrl from rfl,
      hParsed, Except.ok.injEq] at hSame
    have hHost := hExposed.named
    rw [← hSame] at hHost
    have hOwn : Url.hostname ⟨lit "http", lit "feed.test"⟩ =
        some (lit "feed.test") := by
      decide
    rw [hOwn, Option.some.injEq] at hHost
    rcases hExposed.reached with hBlocked | ⟨_, ip, hIp, hBlocked⟩
    · rw [← hHost] at hBlocked
      exact absurd hBlocked (by decide)
    · have hIs : ip = outside.val := by
        simpa [Resolution.texts] using hIp
      rw [hIs] at hBlocked
      rw [show officeFeeds.declared = [] from rfl,
        steady_feed_free] at hBlocked
      cases hBlocked

/- A feed that is validated at an address anyone may reach is
fetched from the host itself. -/
theorem rebound_feed_fetched :
    plainClient.Documented ∧
      isCompanion officeFeeds feedUrl = false ∧
      ¬ ∀ f ∈ httpGet officeFeeds feedUrl []
          (answeredBy loopback),
        ∀ address ∈ f.opened plainClient,
          blocked [] address = false := by
  refine ⟨plainClient_documented, feedUrl_foreign, ?_⟩
  intro hSafe
  rw [httpGet_feedUrl] at hSafe
  have hOpened := hSafe _ List.mem_cons_self loopback.val
    (by
      rw [Fetch.opened, feedUrl_opened]
      exact List.mem_singleton.mpr rfl)
  have hBlocked : blocked [] loopback.val = true := by
    decide
  rw [hBlocked] at hOpened
  cases hOpened

end ThreatOrbit.Net
