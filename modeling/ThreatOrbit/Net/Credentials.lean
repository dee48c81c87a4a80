import ThreatOrbit.Net.Feeds

/-
  Where the credential of a connector goes.

  The headers of a fetch are decided once, and every request
  of its chain of redirects carries them: the first to the
  configured URL, and each one after it to where the server
  just asked has redirected to.
-/

---- Credentials

namespace ThreatOrbit.Net

open Lib

section

/- The URL of a connector, its key and the header it is sent
in, empty where the row has none. -/
structure FeedAccount where
  url : Str
  apiKey : Str
  authHeader : Str

/- The headers of `_fetch_json` and of `_fetch_csv`. -/
def customHeaders (c : FeedAccount) : List (Str × Str) :=
  if c.apiKey = [] then
    []
  else
    [(if c.authHeader = [] then lit "Authorization"
      else c.authHeader, c.apiKey)]

/- The header of `_fetch_otx`. -/
def otxHeaders (c : FeedAccount) : List (Str × Str) :=
  [(lit "X-OTX-API-KEY", c.apiKey)]

/- The headers of `_fetch_nvd`. -/
def nvdHeaders (c : FeedAccount) : List (Str × Str) :=
  if c.apiKey = [] then [] else [(lit "apiKey", c.apiKey)]

variable [Unicode] [Normalizer]

/- The requests of `_fetch_json` and of `_fetch_csv`. -/
def fetchCustom
    (d : FeedDeployment)
    (c : FeedAccount)
    (hops : Nat → Hop) : List Fetch :=
  if c.url = [] then
    []
  else
    httpGet d c.url (customHeaders c) hops

/- The scheme, the host and the port of a URL. -/
def originOf (url : Str) : Option (Str × Option Str × Option Nat) :=
  match urlparse (strip url) with
  | .error _ => none
  | .ok parsed =>
      some (parsed.scheme, parsed.hostname,
        (portOf parsed).toOption)

/- A credential goes to the origin of a URL only. -/
def Confined
    (url : Str)
    (credential : Str × Str)
    (fetches : List Fetch) : Prop :=
  ∀ f ∈ fetches, credential ∈ f.request.headers →
    originOf f.request.url = originOf url

omit [Unicode] [Normalizer] in
/- Each request after the first is where the server of the one
before has redirected to. -/
def FollowsRedirects
    (d : FeedDeployment)
    (hops : Nat → Hop)
    (fetches : List Fetch) : Prop :=
  ∀ (k : Nat) (f g : Fetch),
    fetches[k]? = some f → fetches[k + 1]? = some g →
      ∃ location,
        (hops k).response = .redirect (some location) ∧
          d.join f.request.url location = some g.request.url

/- Every redirect that is followed keeps the origin. -/
def StaysInPlace (fetches : List Fetch) : Prop :=
  ∀ (k : Nat) (f g : Fetch),
    fetches[k]? = some f → fetches[k + 1]? = some g →
      originOf g.request.url = originOf f.request.url

end

---- The Chain Of Requests

section

variable [Unicode] [Normalizer]
variable (d : FeedDeployment)
variable (headers : List (Str × Str))
variable (hops : Nat → Hop)

/- One turn of the loop: a request, and the turns after it if
the server redirects. -/
theorem readCapped_step
    (left i : Nat) (current : Str) (allow : Bool) :
    ∃ rest,
      readCapped d headers hops (left + 1) i current allow =
        ⟨feedRequest current headers, allow,
          (hops i).validating, (hops i).connecting⟩ :: rest ∧
      (rest = [] ∨ ∃ location next,
        (hops i).response = .redirect (some location) ∧
        d.join current location = some next ∧
        rest = readCapped d headers hops left (i + 1) next
          d.allowPrivate) := by
  rw [readCapped]
  refine ⟨_, rfl, ?_⟩
  split
  · rename_i c location hAccepts hResponse
    split
    · exact Or.inl rfl
    · rename_i next hNext
      split
      · exact Or.inl rfl
      · exact Or.inr ⟨_, next, hResponse, hNext, rfl⟩
  · exact Or.inl rfl

variable {d} {headers} {hops}

theorem readCapped_first
    {left i : Nat} {current : Str} {allow : Bool} {f : Fetch}
    (hFirst :
      (readCapped d headers hops left i current allow)[0]? =
        some f) :
    f.request.url = current := by
  cases left with
  | zero => cases hFirst
  | succ left =>
      obtain ⟨rest, hStep, -⟩ :=
        readCapped_step d headers hops left i current allow
      rw [hStep] at hFirst
      rw [← Option.some.inj hFirst]
      rfl

/- Every request carries the headers of the fetch. -/
theorem readCapped_headers
    (left i : Nat) (current : Str) (allow : Bool) :
    ∀ f ∈ readCapped d headers hops left i current allow,
      f.request.headers = headers := by
  induction left generalizing i current allow with
  | zero => exact List.forall_mem_nil _
  | succ left ih =>
      obtain ⟨rest, hStep, hRest⟩ :=
        readCapped_step d headers hops left i current allow
      rw [hStep, List.forall_mem_cons]
      refine ⟨rfl, ?_⟩
      rcases hRest with hNil | ⟨location, next, -, -, hNext⟩
      · rw [hNil]
        exact List.forall_mem_nil _
      · rw [hNext]
        exact ih _ _ _

variable (d) (headers) (hops) in
/- The requests of the loop follow the redirects. -/
theorem readCapped_follows
    (left i : Nat) (current : Str) (allow : Bool) :
    FollowsRedirects d (fun k => hops (i + k))
      (readCapped d headers hops left i current allow) := by
  induction left generalizing i current allow with
  | zero =>
      intro k f g hF
      cases hF
  | succ left ih =>
      obtain ⟨rest, hStep, hRest⟩ :=
        readCapped_step d headers hops left i current allow
      rw [hStep]
      intro k f g hF hG
      rw [List.getElem?_cons_succ] at hG
      rcases hRest with hNil | ⟨location, next, hTo, hJoin, hNext⟩
      · rw [hNil] at hG
        cases hG
      · rw [hNext] at hF hG
        cases k with
        | zero =>
            refine ⟨location, hTo, ?_⟩
            rw [readCapped_first hG, ← Option.some.inj hF]
            exact hJoin
        | succ k =>
            rw [List.getElem?_cons_succ] at hF
            have hLater := ih (i + 1) next d.allowPrivate
              k f g hF hG
            have hIndex : i + 1 + k = i + (k + 1) := by omega
            simp only [hIndex] at hLater
            exact hLater

variable (d) (headers) (hops) in
/- A fetch whose URL is let pass is the loop. -/
theorem httpGet_cases
    (url : Str) :
    httpGet d url headers hops = [] ∨
      httpGet d url headers hops =
        readCapped d headers hops (maxRedirects + 1) 0 url
          (isCompanion d url || d.allowPrivate) := by
  unfold httpGet
  simp only
  split
  · exact Or.inl rfl
  · exact Or.inr rfl

theorem httpGet_headers
    (url : Str) :
    ∀ f ∈ httpGet d url headers hops,
      f.request.headers = headers := by
  rcases httpGet_cases d headers hops url with hNone | hLoop
  · rw [hNone]
    exact List.forall_mem_nil _
  · rw [hLoop]
    exact readCapped_headers _ _ _ _

theorem httpGet_first
    {url : Str} {f : Fetch}
    (hFirst : (httpGet d url headers hops)[0]? = some f) :
    f.request.url = url := by
  rcases httpGet_cases d headers hops url with hNone | hLoop
  · rw [hNone] at hFirst
    cases hFirst
  · rw [hLoop] at hFirst
    exact readCapped_first hFirst

theorem httpGet_follows
    (url : Str) :
    FollowsRedirects d hops (httpGet d url headers hops) := by
  rcases httpGet_cases d headers hops url with hNone | hLoop
  · rw [hNone]
    intro k f g hF
    cases hF
  · rw [hLoop]
    have hAll := readCapped_follows d headers hops
      (maxRedirects + 1) 0 url
      (isCompanion d url || d.allowPrivate)
    simpa only [Nat.zero_add] using hAll

---- Confinement

/- Where every redirect keeps the origin, the requests have the
origin of the first. -/
theorem origin_of_stays
    {fetches : List Fetch} {url : Str}
    (hFirst :
      ∀ f, fetches[0]? = some f → f.request.url = url)
    (hStays : StaysInPlace fetches) :
    ∀ f ∈ fetches, originOf f.request.url = originOf url := by
  have hEach :
      ∀ (k : Nat) (f : Fetch), fetches[k]? = some f →
        originOf f.request.url = originOf url := by
    intro k
    induction k with
    | zero =>
        intro f hF
        rw [hFirst f hF]
    | succ k ih =>
        intro g hG
        have hLength : k < fetches.length :=
          Nat.lt_of_succ_lt (List.getElem?_eq_some_iff.mp hG).1
        have hF := List.getElem?_eq_getElem hLength
        rw [hStays k _ g hF hG]
        exact ih _ hF
  intro f hMem
  obtain ⟨k, hK⟩ := List.mem_iff_getElem?.mp hMem
  exact hEach k f hK

/- A credential that is sent stays at the origin exactly if
every redirect that is followed does. -/
theorem confined_iff_stays
    {url : Str} {credential : Str × Str}
    (hSent : credential ∈ headers) :
    Confined url credential (httpGet d url headers hops) ↔
      StaysInPlace (httpGet d url headers hops) := by
  constructor
  · intro hConfined k f g hF hG
    have hAt :
        ∀ f ∈ httpGet d url headers hops,
          originOf f.request.url = originOf url := by
      intro f hMem
      apply hConfined f hMem
      rw [httpGet_headers url f hMem]
      exact hSent
    rw [hAt g (List.mem_of_getElem? hG),
      hAt f (List.mem_of_getElem? hF)]
  · intro hStays f hMem _
    exact origin_of_stays (fun f hF => httpGet_first hF)
      hStays f hMem

/- A credential goes along the chain of redirects and nowhere
else: to the URL of the connector, and to where the server
asked before has redirected to, each of them validated. It
is confined to the origin of the URL exactly if every
redirect keeps the origin. -/
theorem credential_along_chain
    (d : FeedDeployment)
    (url : Str)
    (headers : List (Str × Str))
    (credential : Str × Str)
    (hSent : credential ∈ headers)
    (hops : Nat → Hop) :
    (∀ f ∈ httpGet d url headers hops,
      f.request.headers = headers ∧ f.Issued d) ∧
    (∀ f, (httpGet d url headers hops)[0]? = some f →
      f.request.url = url) ∧
    FollowsRedirects d hops (httpGet d url headers hops) ∧
    (httpGet d url headers hops).length ≤ maxRedirects + 1 ∧
    (Confined url credential (httpGet d url headers hops) ↔
      StaysInPlace (httpGet d url headers hops)) :=
  ⟨fun f hMem =>
      ⟨httpGet_headers url f hMem, httpGet_issued f hMem⟩,
    fun _ hFirst => httpGet_first hFirst,
    httpGet_follows url,
    httpGet_length url headers hops,
    confined_iff_stays hSent⟩

end

---- A Redirect To Another Host

local instance credentialUnicode : Unicode := asciiTables

local instance credentialNormalizer : Normalizer := ⟨id⟩

/- A feed with a key of its own. -/
def keyedFeed : FeedAccount where
  url := lit "https://feed.test/list"
  apiKey := lit "k1"
  authHeader := []

def feedKey : Str × Str :=
  (lit "Authorization", lit "k1")

def answersAtOnce (_ : Nat) : Hop :=
  ⟨answering outside, .addresses [outside], .final⟩

/- The feed sends its readers to another host, in the clear. -/
def sendsAway (i : Nat) : Hop :=
  ⟨answering outside, .addresses [outside],
    if i = 0 then .redirect (some (lit "http://other.test/"))
    else .final⟩

theorem key_along_chain :
    FollowsRedirects officeFeeds answersAtOnce
        (httpGet officeFeeds keyedFeed.url
          (customHeaders keyedFeed) answersAtOnce) ∧
      (httpGet officeFeeds keyedFeed.url
        (customHeaders keyedFeed) answersAtOnce).length ≤
          maxRedirects + 1 ∧
      (Confined keyedFeed.url feedKey
          (httpGet officeFeeds keyedFeed.url
            (customHeaders keyedFeed) answersAtOnce) ↔
        StaysInPlace
          (httpGet officeFeeds keyedFeed.url
            (customHeaders keyedFeed) answersAtOnce)) :=
  (credential_along_chain officeFeeds keyedFeed.url
    (customHeaders keyedFeed) feedKey
    (List.mem_singleton_self _) answersAtOnce).2.2

/- The URL that the feed sends its readers to. -/
def otherUrl : Str :=
  lit "http://other.test/"

theorem sendsAway_fetches :
    fetchCustom officeFeeds keyedFeed sendsAway =
      [⟨feedRequest keyedFeed.url [feedKey], false,
        answering outside, .addresses [outside]⟩,
        ⟨feedRequest otherUrl [feedKey], false,
        answering outside, .addresses [outside]⟩] := by
  have hFirst :
      validateExternalUrl [] keyedFeed.url false
        (answering outside) = .ok keyedFeed.url := by
    decide
  have hNext :
      validateExternalUrl [] otherUrl false
        (answering outside) = .ok otherUrl := by
    decide
  have hForeign : isCompanion officeFeeds keyedFeed.url = false := by
    decide
  have hDeclared : officeFeeds.declared = [] := rfl
  have hPublic : officeFeeds.allowPrivate = false := rfl
  have hFrom : (sendsAway 0).validating = answering outside := rfl
  have hTo : (sendsAway 1).validating = answering outside := rfl
  have hAway :
      (sendsAway 0).response =
        .redirect (some (cp 'h' :: lit "ttp://other.test/")) :=
    rfl
  have hJoin :
      officeFeeds.join keyedFeed.url
        (cp 'h' :: lit "ttp://other.test/") = some otherUrl :=
    rfl
  have hAccepts : ∀ r, officeFeeds.client.accepts r = true :=
    fun _ => rfl
  have hEnd : (sendsAway 1).response = .final := rfl
  have hHeaders : customHeaders keyedFeed = [feedKey] := rfl
  have hUrl : keyedFeed.url ≠ [] := List.cons_ne_nil _ _
  unfold fetchCustom httpGet
  simp only [if_neg hUrl, hForeign, hDeclared, hPublic, hFrom,
    hFirst, Bool.or_self, hHeaders, maxRedirects]
  rw [readCapped]
  simp only [hAccepts, hAway, hJoin, hDeclared, hPublic, hTo,
    hNext]
  rw [readCapped]
  simp only [hAccepts, hEnd]
  rfl

/- The key of the feed goes to the other host, in the clear. -/
theorem key_sent_away :
    ¬ Confined keyedFeed.url feedKey
      (fetchCustom officeFeeds keyedFeed sendsAway) := by
  intro hConfined
  have hSame :=
    hConfined
      ⟨feedRequest otherUrl [feedKey], false,
        answering outside, .addresses [outside]⟩
      (by
        rw [sendsAway_fetches]
        exact List.mem_cons_of_mem _ (List.mem_singleton_self _))
      (List.mem_singleton_self _)
  have hOther : originOf otherUrl =
      some (lit "http", some (lit "other.test"), some 80) := by
    decide
  have hOwn : originOf keyedFeed.url =
      some (lit "https", some (lit "feed.test"), some 443) := by
    decide
  have hEq := hOther.symm.trans (hSame.trans hOwn)
  exact absurd hEq (by decide)

end ThreatOrbit.Net
