import ThreatOrbit.Connectors.Blocklists

/-
  The incremental sync of the curated blocklists.

  A sync asks every host for its list under the condition
  that it has changed, and saves the validators it was given
  once the rows are imported.
-/

---- Conditional Requests

namespace ThreatOrbit.Connectors

open Lib

/- The validators of a response, or those that are saved. -/
structure Validators where
  etag : Option Str
  lastModified : Option Str
deriving DecidableEq

def Validators.blank : Validators := ⟨none, none⟩

/- A header that is there and not empty. -/
def given (value : Option Str) : Option Str :=
  value.filter (· != [])

/- `If-None-Match` and `If-Modified-Since` of a request. -/
def Validators.sent (v : Validators) : Validators :=
  ⟨given v.etag, given v.lastModified⟩

/- What a host answers to a request: the chunks of a body, as
they arrive. -/
inductive Answer where
  | failed
  | notModified
  | body (chunks : List Bytes) (headers : Validators)

/- The validators that a connector has saved, by URL. -/
abbrev SyncState := List (Str × Validators)

/- `state.get(url) or {}`. -/
def validatorsOf (state : SyncState) (url : Str) : Validators :=
  (lookup url state).getD .blank

structure BulkDeployment where
  tools : ImportTools
  maxPerFeed : Nat
  bulkFeedMaxBytes : Nat
  maxFeedBytes : Nat
  importBatch : Nat
  catalogue : Catalogue
  imports : 0 < importBatch

/- The chunks that `_read_capped` keeps after so many bytes,
and whether it has stopped early; `none` where it refuses the
response. -/
def readChunks
    (d : BulkDeployment) :
    Nat → List Bytes → Option (List Bytes × Bool)
| _, [] => some ([], false)
| total, chunk :: rest =>
    let total := total + chunk.length
    if d.bulkFeedMaxBytes ≤ total then some ([chunk], true)
    else if d.maxFeedBytes < total then none
    else
      (readChunks d total rest).map fun r =>
        (chunk :: r.1, r.2)

/- The body that `_read_capped` returns: without its last
line where it has stopped early. -/
def readBody
    (d : BulkDeployment)
    (chunks : List Bytes) : Option Bytes :=
  (readChunks d 0 chunks).map fun r =>
    if r.2 then
      (r.1.flatten.reverse.dropWhile (· != newline)).reverse
    else r.1.flatten

/- What a request comes to. -/
inductive Got where
  | failed
  | unchanged
  | read (entries : List Entry)

/- A request in `one` and `one_family`, with what it enters
in `new_state`. The validators are entered before the body is
parsed. -/
def conditionalGet
    (d : BulkDeployment)
    (net : Str → Validators → Answer)
    (state : SyncState)
    (l : Listing) : Got × SyncState :=
  let prev := validatorsOf state l.url
  match net l.url prev.sent with
  | .failed => (.failed, [])
  | .notModified => (.unchanged, [(l.url, prev)])
  | .body chunks headers =>
      match readBody d chunks with
      | none => (.failed, [])
      | some body =>
          let saved :=
            if headers.sent = .blank then []
            else [(l.url, headers)]
          match l.parser.parse d.maxPerFeed
              (decodeReplace body) with
          | none => (.failed, saved)
          | some entries => (.read entries, saved)

---- The Fetch

section

/- How the fetch of a feed went. -/
inductive FeedHealth where
  | ok
  | unchanged
  | mirrored (servedVia : Str)
  | failed

/- What the fetch of a feed adds. -/
structure Fetched where
  rows : List Indicator
  saved : SyncState
  health : FeedHealth

/- The listing that has answered for a feed. -/
def BulkFeed.answered
    (feed : BulkFeed) : FeedHealth → Option Listing
| .ok | .unchanged => some feed.origin
| .mirrored via => some (feed.at via)
| .failed => none

def FamilyFeed.answered
    (feed : FamilyFeed) : FeedHealth → Option Listing
| .failed => none
| _ => some feed.listing

variable [Unicode]

def one
    (d : BulkDeployment)
    (net : Str → Validators → Answer)
    (state : SyncState)
    (feed : BulkFeed) : Fetched :=
  let prev := validatorsOf state feed.url
  let origin := conditionalGet d net state feed.origin
  match origin.1 with
  | .unchanged => ⟨[], origin.2, .unchanged⟩
  | .read entries =>
      ⟨rowsOf feed.forced feed.row entries, origin.2, .ok⟩
  | .failed =>
      match lookup feed.name d.catalogue.mirror with
      | none =>
          ⟨[], setEntry feed.url prev origin.2, .failed⟩
      | some murl =>
          let mirror := conditionalGet d net state (feed.at murl)
          let saved :=
            setEntry feed.url prev (origin.2 ++ mirror.2)
          match mirror.1 with
          | .unchanged => ⟨[], saved, .mirrored murl⟩
          | .failed => ⟨[], saved, .failed⟩
          | .read entries =>
              ⟨rowsOf feed.forced feed.row entries, saved,
                .mirrored murl⟩

def oneFamily
    (d : BulkDeployment)
    (net : Str → Validators → Answer)
    (state : SyncState)
    (feed : FamilyFeed) : Fetched :=
  let prev := validatorsOf state feed.url
  let trail := conditionalGet d net state feed.listing
  match trail.1 with
  | .unchanged => ⟨[], trail.2, .ok⟩
  | .read entries =>
      ⟨rowsOf none feed.row entries, trail.2, .ok⟩
  | .failed => ⟨[], setEntry feed.url prev trail.2, .failed⟩

/- What `_fetch_bulk_osint` returns and hands back, with the
listings that have answered. -/
structure BulkFetch where
  rows : List Indicator
  lastState : SyncState
  answered : List Listing

def fetchBulkOsint
    (d : BulkDeployment)
    (net : Str → Validators → Answer)
    (state : SyncState) : BulkFetch :=
  let k := d.catalogue
  let blocklists := k.feeds.map (one d net state)
  let attributed := k.families.map (oneFamily d net state)
  { rows := (blocklists ++ attributed).flatMap Fetched.rows
    lastState :=
      (blocklists ++ attributed).flatMap Fetched.saved
    answered :=
      k.feeds.filterMap (fun feed =>
        feed.answered (one d net state feed).health) ++
      k.families.filterMap fun feed =>
        feed.answered (oneFamily d net state feed).health }

end

---- The System

section

/- The kinds that pull the blocklists. -/
inductive BulkKind where
  | osint
  | threatorbit
deriving DecidableEq

/- A row of `connectors` of such a kind. -/
structure BulkConnector where
  id : Str
  name : Str
  kind : BulkKind
  state : SyncState
deriving DecidableEq

/- What a host serves at a time. -/
structure Page where
  content : Bytes
  validators : Validators

/- Two sets of validators have one in common. -/
def Validators.Shared (v w : Validators) : Prop :=
  (∃ e, given v.etag = some e ∧ given w.etag = some e) ∨
    ∃ m, given v.lastModified = some m ∧
      given w.lastModified = some m

/- The hosts while a sync runs: a body that is sent is what
the host serves, and a host answers that nothing has
changed only if it is sent a validator of what it serves. -/
structure World where
  pages : Str → Page
  net : Str → Validators → Answer
  honest_body :
    ∀ url cond chunks headers,
      net url cond = .body chunks headers →
        chunks.flatten = (pages url).content ∧
          headers = (pages url).validators
  honest_unchanged :
    ∀ url cond, net url cond = .notModified →
      cond.Shared (pages url).validators

/- A sync of a connector: what the companion holds where it
is reachable, and after how many sub-batches it fails where
it does. -/
structure SyncRun where
  connector : Str
  now : Str
  world : World
  companion : Option (List Indicator)
  failsAfter : Option Nat

/- The syncs, and the requests that reset what is saved. -/
inductive SyncEvent where
  | sync (run : SyncRun)
  | reset (connector : Str)

def SyncEvent.worlds : SyncEvent → List World
| .sync run => [run.world]
| .reset _ => []

structure SyncSystem where
  connectors : List BulkConnector
  store : IocStore

variable [Unicode]

/- `_fetch_bulk_osint` and `_fetch_threatorbit`. -/
def fetchRows
    (d : BulkDeployment)
    (run : SyncRun)
    (c : BulkConnector) : List Indicator :=
  let rows := (fetchBulkOsint d run.world.net c.state).rows
  match c.kind with
  | .osint => rows
  | .threatorbit => rows ++ run.companion.getD []

/- What `run_connector` leaves: the state of the connector,
the store, and whether the status is `ok`. -/
def runConnector
    (d : BulkDeployment)
    (run : SyncRun)
    (c : BulkConnector)
    (store : IocStore) : SyncState × IocStore × Bool :=
  let rows := fetchRows d run c
  let lastState :=
    (fetchBulkOsint d run.world.net c.state).lastState
  match run.failsAfter with
  | some n =>
      (c.state,
        (importChunks d.tools run.now c.name
          maxIntelAlertsPerRun store
          ((chunks d.importBatch rows).take n)).1,
        false)
  | none =>
      (if lastState.isEmpty then c.state else lastState,
        (importIndicators d.tools run.now c.name d.importBatch
          store rows).1,
        true)

/- `UPDATE connectors SET state=? WHERE id=?`. -/
def setState
    (id : Str)
    (state : SyncState)
    (connectors : List BulkConnector) : List BulkConnector :=
  connectors.map fun c =>
    if c.id == id then { c with state := state } else c

def SyncSystem.connector?
    (s : SyncSystem)
    (id : Str) : Option BulkConnector :=
  s.connectors.find? fun c => c.id == id

/- A sync, or `reset_state`. -/
def syncStep
    (d : BulkDeployment)
    (s : SyncSystem) : SyncEvent → SyncSystem
| .sync run =>
    match s.connector? run.connector with
    | none => s
    | some c =>
        let r := runConnector d run c s.store
        ⟨setState run.connector r.1 s.connectors, r.2.1⟩
| .reset id =>
    { s with connectors := setState id [] s.connectors }

/- Syncs and resets, one after another. -/
def syncRuns
    (d : BulkDeployment)
    (s : SyncSystem)
    (events : List SyncEvent) : SyncSystem :=
  events.foldl (syncStep d) s

end

---- What Is Covered

/- The values of the first entries of a text that can be
imported are in the store. -/
def Holds
    (d : BulkDeployment)
    (store : IocStore)
    (l : Listing)
    (text : Bytes) : Prop :=
  ∀ e ∈ (l.parser.entries (decodeReplace text)).take
      d.maxPerFeed,
    ∀ v, importedAs d.tools l.forced e.1 = some v →
      v ∈ store.values

/- The store holds what a download has kept of a content. -/
def Covered
    (d : BulkDeployment)
    (store : IocStore)
    (l : Listing)
    (content : Bytes) : Prop :=
  ∃ chunks body, chunks.flatten = content ∧
    readBody d chunks = some body ∧ Holds d store l body

/- The validators of a listing are none, or those of a
content that it has served and that is covered. -/
def Safe
    (d : BulkDeployment)
    (past : List World)
    (store : IocStore)
    (l : Listing)
    (v : Validators) : Prop :=
  v = .blank ∨ ∃ w ∈ past, v = (w.pages l.url).validators ∧
    Covered d store l (w.pages l.url).content

/- Every connector has saved safe validators. -/
def Kept
    (d : BulkDeployment)
    (past : List World)
    (s : SyncSystem) : Prop :=
  ∀ c ∈ s.connectors, ∀ l ∈ d.catalogue.listings,
    Safe d past s.store l (validatorsOf c.state l.url)

/- The validators of a host change with its content. -/
def Distinguishing (worlds : List World) : Prop :=
  ∀ v ∈ worlds, ∀ w ∈ worlds, ∀ url,
    (v.pages url).validators.Shared (w.pages url).validators →
      (v.pages url).content = (w.pages url).content

---- The Store Grows

section

variable {d : BulkDeployment}
variable {l : Listing}

theorem Covered.mono
    {store store' : IocStore} {content : Bytes}
    (hCovered : Covered d store l content)
    (hGrows : store.values ⊆ store'.values) :
    Covered d store' l content := by
  rcases hCovered with ⟨chunks, body, hFlat, hBody, hHolds⟩
  refine ⟨chunks, body, hFlat, hBody, ?_⟩
  intro e hE v hImported
  exact hGrows (hHolds e hE v hImported)

theorem Safe.mono
    {past past' : List World} {store store' : IocStore}
    {v : Validators}
    (hSafe : Safe d past store l v) (hPast : past ⊆ past')
    (hGrows : store.values ⊆ store'.values) :
    Safe d past' store' l v := by
  rcases hSafe with hBlank | ⟨w, hWorld, hIs, hCovered⟩
  · exact .inl hBlank
  · exact .inr ⟨w, hPast hWorld, hIs, hCovered.mono hGrows⟩

/- Safe validators that a host still takes for its own are
those of a content that is covered. -/
theorem covered_of_shared
    {past : List World} {w : World} {store : IocStore}
    {v : Validators}
    (hSafe : Safe d past store l v)
    (hShared : v.Shared (w.pages l.url).validators)
    (hChanges : Distinguishing (past ++ [w])) :
    Covered d store l (w.pages l.url).content := by
  rcases hSafe with hBlank | ⟨w', hWorld, hIs, hCovered⟩
  · rw [hBlank] at hShared
    simp [Validators.Shared, Validators.blank, given] at hShared
  · rw [hIs] at hShared
    rw [← hChanges w' (by simp [hWorld]) w (by simp) l.url
      hShared]
    exact hCovered

/- A body that is shorter than the limits is kept whole. -/
theorem readBody_short
    {chunks : List Bytes}
    (hShort : chunks.flatten.length < d.bulkFeedMaxBytes)
    (hSmall : chunks.flatten.length ≤ d.maxFeedBytes) :
    readBody d chunks = some chunks.flatten := by
  have hRead : ∀ (rest : List Bytes) (total : Nat),
      total + rest.flatten.length < d.bulkFeedMaxBytes →
      total + rest.flatten.length ≤ d.maxFeedBytes →
      readChunks d total rest = some (rest, false) := by
    intro rest
    induction rest with
    | nil =>
        intro total _ _
        rfl
    | cons chunk rest ih =>
        intro total hLess hLe
        rw [List.flatten_cons, List.length_append] at hLess hLe
        simp only [readChunks]
        rw [if_neg (by omega), if_neg (by omega),
          ih (total + chunk.length) (by omega) (by omega)]
        rfl
  rw [readBody, hRead chunks 0 (by omega) (by omega)]
  rfl

/- Of a short content all the first entries are covered. -/
theorem holds_of_short
    {store : IocStore} {content : Bytes}
    (hCovered : Covered d store l content)
    (hShort : content.length < d.bulkFeedMaxBytes)
    (hSmall : content.length ≤ d.maxFeedBytes) :
    Holds d store l content := by
  rcases hCovered with ⟨chunks, body, hFlat, hBody, hHolds⟩
  rw [← hFlat] at hShort hSmall
  rw [readBody_short hShort hSmall, Option.some.injEq] at hBody
  rw [← hFlat, hBody]
  exact hHolds

variable [Unicode]
variable {now source : Str}

/- An import keeps what the store has. -/
theorem importChunks_grows
    (parts : List (List Indicator)) (budget : Nat)
    (store : IocStore) :
    store.values ⊆
      (importChunks d.tools now source budget store
        parts).1.values := by
  rw [(importChunks_spec parts budget store).1.values]
  exact List.subset_append_left _ _

/- An import stores what can be imported of its list. -/
theorem import_stores
    {store : IocStore} {inds : List Indicator} {ind : Indicator}
    {c : Candidate}
    (hInd : ind ∈ inds)
    (hRead : readIndicator d.tools now source ind = some c) :
    c.value ∈ (importIndicators d.tools now source d.importBatch
      store inds).1.values := by
  rw [(importIndicators_spec d.imports store inds).1.values,
    List.mem_append]
  exact sortBatch_covers store.values hInd hRead

end

---- What A Request Comes To

section

variable {d : BulkDeployment}
variable {w : World}
variable {state : SyncState}
variable {l : Listing}

theorem shared_of_sent
    {v v' : Validators}
    (hShared : v.sent.Shared v') :
    v.Shared v' := by
  have hTwice : ∀ o : Option Str, given (given o) = given o := by
    intro o
    simp [given, Option.filter_filter]
  simpa only [Validators.Shared, Validators.sent, hTwice]
    using hShared

/- A list that has not changed keeps its validators, which
are those of what is served. -/
theorem conditionalGet_unchanged
    (hGot :
      (conditionalGet d w.net state l).1 = .unchanged) :
    (conditionalGet d w.net state l).2 =
        [(l.url, validatorsOf state l.url)] ∧
      (validatorsOf state l.url).Shared
        (w.pages l.url).validators := by
  unfold conditionalGet at hGot ⊢
  simp only at hGot ⊢
  cases hNet : w.net l.url (validatorsOf state l.url).sent with
  | failed =>
      simp only [hNet] at hGot
      cases hGot
  | notModified =>
      exact ⟨rfl, shared_of_sent (w.honest_unchanged _ _ hNet)⟩
  | body chunks headers =>
      simp only [hNet] at hGot
      split at hGot
      · cases hGot
      · split at hGot
        · cases hGot
        · cases hGot

/- A list that is read is what a download keeps of what is
served, and saves the validators of that. -/
theorem conditionalGet_read
    {entries : List Entry}
    (hGot :
      (conditionalGet d w.net state l).1 = .read entries) :
    (∀ e ∈ (conditionalGet d w.net state l).2,
        e = (l.url, (w.pages l.url).validators)) ∧
      ∃ chunks body,
        chunks.flatten = (w.pages l.url).content ∧
          readBody d chunks = some body ∧
          l.parser.parse d.maxPerFeed (decodeReplace body) =
            some entries := by
  unfold conditionalGet at hGot ⊢
  simp only at hGot ⊢
  cases hNet : w.net l.url (validatorsOf state l.url).sent with
  | failed =>
      simp only [hNet] at hGot
      cases hGot
  | notModified =>
      simp only [hNet] at hGot
      cases hGot
  | body chunks headers =>
      rcases w.honest_body _ _ _ _ hNet with ⟨hFlat, hHeaders⟩
      simp only [hNet] at hGot
      cases hBody : readBody d chunks with
      | none =>
          simp only [hBody] at hGot
          cases hGot
      | some body =>
          simp only [hBody] at hGot ⊢
          cases hParse : l.parser.parse d.maxPerFeed
              (decodeReplace body) with
          | none =>
              simp only [hParse] at hGot
              cases hGot
          | some found =>
              simp only [hParse, Got.read.injEq] at hGot ⊢
              refine ⟨?_, chunks, body, hFlat, hBody, ?_⟩
              · intro e hE
                rw [hHeaders] at hE
                split at hE
                · cases hE
                · exact List.mem_singleton.mp hE
              · rw [hParse, hGot]

/- A request enters nothing but its own URL, and nothing where
it fails and the parser reads lines. -/
theorem conditionalGet_keys :
    (∀ e ∈ (conditionalGet d w.net state l).2, e.1 = l.url) ∧
      ((conditionalGet d w.net state l).1 = .failed →
        l.parser.byLine = true →
          (conditionalGet d w.net state l).2 = []) := by
  unfold conditionalGet
  simp only
  cases w.net l.url (validatorsOf state l.url).sent with
  | failed => simp
  | notModified => simp
  | body chunks headers =>
      simp only
      cases readBody d chunks with
      | none => simp
      | some body =>
          simp only
          cases hParse : l.parser.parse d.maxPerFeed
              (decodeReplace body) with
          | none =>
              simp only
              constructor
              · intro e hE
                split at hE
                · cases hE
                · rw [List.mem_singleton.mp hE]
              · intro _ hLine
                have hSome := parse_isSome hLine d.maxPerFeed
                  (decodeReplace body)
                rw [hParse] at hSome
                cases hSome
          | some entries =>
              simp only
              constructor
              · intro e hE
                split at hE
                · cases hE
                · rw [List.mem_singleton.mp hE]
              · intro hGot
                cases hGot

end

---- What A Fetch Saves

section

/- A listing is covered, or its validators are safe and still
those of what it serves. -/
def Current
    (d : BulkDeployment)
    (past : List World)
    (w : World)
    (store : IocStore)
    (l : Listing) : Prop :=
  Covered d store l (w.pages l.url).content ∨
    ∃ v, Safe d past store l v ∧
      v.Shared (w.pages l.url).validators

variable [Unicode]

/- The store has what can be imported of the rows. -/
def Stores
    (d : BulkDeployment)
    (store : IocStore)
    (rows : List Indicator) : Prop :=
  ∀ ind ∈ rows, ∀ now source c,
    readIndicator d.tools now source ind = some c →
      c.value ∈ store.values

/- What a fetch saves for its listings is safe, and the one
that has answered is current. -/
structure Fetched.Sound
    (d : BulkDeployment)
    (past : List World)
    (w : World)
    (store : IocStore)
    (listings : List Listing)
    (answered : Option Listing)
    (f : Fetched) : Prop where
  saved :
    ∀ url v, lookup url f.saved = some v →
      ∃ l ∈ listings, l.url = url ∧
        Safe d (past ++ [w]) store l v
  current :
    ∀ l, answered = some l →
      l ∈ listings ∧ Current d past w store l

variable {d : BulkDeployment}
variable {past : List World}
variable {w : World}
variable {state : SyncState}
variable {store : IocStore}
variable {l : Listing}

/- A list that is read is covered where its rows are
stored. -/
theorem covered_of_read
    {entries : List Entry} {row : Str → Entry → Indicator}
    (hRow : ∀ type e, (row type e).type = some type ∧
      (row type e).value = some e.1)
    (hGot : (conditionalGet d w.net state l).1 = .read entries)
    (hStores : Stores d store (rowsOf l.forced row entries)) :
    Covered d store l (w.pages l.url).content := by
  rcases (conditionalGet_read hGot).2 with
    ⟨chunks, body, hFlat, hBody, hParse⟩
  refine ⟨chunks, body, hFlat, hBody, ?_⟩
  intro e hE v hImported
  have hEntry := parse_prefix hParse e hE
  rcases mem_rowsOf [] [] hRow hEntry hImported with
    ⟨ind, hInd, c, hRead, hValue⟩
  rw [← hValue]
  exact hStores ind hInd _ _ c hRead

/- What a request enters is safe, and its listing is current,
unless it fails. -/
omit [Unicode] in
theorem sound_of_got
    (hSafe : Safe d past store l (validatorsOf state l.url))
    (hGot : (conditionalGet d w.net state l).1 ≠ .failed)
    (hRead : ∀ entries,
      (conditionalGet d w.net state l).1 = .read entries →
        Covered d store l (w.pages l.url).content) :
    (∀ e ∈ (conditionalGet d w.net state l).2,
        Safe d (past ++ [w]) store l e.2) ∧
      Current d past w store l := by
  cases hIs : (conditionalGet d w.net state l).1 with
  | failed => exact absurd hIs hGot
  | unchanged =>
      rcases conditionalGet_unchanged hIs with
        ⟨hSaved, hShared⟩
      refine ⟨?_, .inr ⟨_, hSafe, hShared⟩⟩
      intro e hE
      rw [hSaved, List.mem_singleton] at hE
      rw [hE]
      exact hSafe.mono (List.subset_append_left _ _) fun _ h => h
  | read entries =>
      have hCovered := hRead entries hIs
      refine ⟨?_, .inl hCovered⟩
      intro e hE
      rw [(conditionalGet_read hIs).1 e hE]
      exact .inr ⟨w, by simp, rfl, hCovered⟩

/- What a request enters is safe for its listing. -/
omit [Unicode] in
theorem safe_of_entered
    {listings : List Listing}
    (hListing : l ∈ listings)
    (hSaved : ∀ e ∈ (conditionalGet d w.net state l).2,
      Safe d (past ++ [w]) store l e.2)
    (url : Str)
    (v : Validators)
    (hEntered : (url, v) ∈ (conditionalGet d w.net state l).2) :
    ∃ l ∈ listings, l.url = url ∧
      Safe d (past ++ [w]) store l v :=
  ⟨l, hListing, ((conditionalGet_keys).1 _ hEntered).symm,
    hSaved _ hEntered⟩

/- Where a request has failed its listing keeps the validators
that it had. -/
omit [Unicode] in
theorem safe_of_failed
    {listings : List Listing} {more : SyncState}
    (hListing : l ∈ listings)
    (hPrev : Safe d past store l (validatorsOf state l.url))
    (hMore : ∀ url v, (url, v) ∈ more →
      ∃ l ∈ listings, l.url = url ∧
        Safe d (past ++ [w]) store l v)
    (url : Str)
    (v : Validators)
    (hFound :
      lookup url
        (setEntry l.url (validatorsOf state l.url)
          ((conditionalGet d w.net state l).2 ++ more)) =
        some v) :
    ∃ l ∈ listings, l.url = url ∧
      Safe d (past ++ [w]) store l v := by
  rw [lookup_setEntry] at hFound
  split at hFound
  · rename_i hSame
    rw [Option.some.injEq] at hFound
    refine ⟨l, hListing, hSame, ?_⟩
    rw [← hFound]
    exact hPrev.mono (List.subset_append_left _ _) fun _ h => h
  · rename_i hOther
    rcases List.mem_append.mp (mem_of_lookup hFound) with
      hOwn | hIn
    · exact absurd ((conditionalGet_keys).1 _ hOwn).symm hOther
    · exact hMore url v hIn

/- A fetch that its listing has answered is sound. -/
omit [Unicode] in
theorem sound_of_answer
    {listings : List Listing} {rows : List Indicator}
    {health : FeedHealth}
    (hListing : l ∈ listings)
    (hSaved : ∀ e ∈ (conditionalGet d w.net state l).2,
      Safe d (past ++ [w]) store l e.2)
    (hCurrent : Current d past w store l) :
    Fetched.Sound d past w store listings (some l)
      ⟨rows, (conditionalGet d w.net state l).2, health⟩ := by
  refine ⟨?_, ?_⟩
  · intro url v hFound
    exact safe_of_entered hListing hSaved url v
      (mem_of_lookup hFound)
  · intro l' hIs
    cases hIs
    exact ⟨hListing, hCurrent⟩

/- The fetch of a feed is sound: where the origin fails its
validators are kept, and the mirror has its own. -/
theorem one_sound
    {feed : BulkFeed}
    (hFeed : feed ∈ d.catalogue.feeds)
    (hSafe : ∀ l ∈ feed.listings d.catalogue.mirror,
      Safe d past store l (validatorsOf state l.url))
    (hStores : Stores d store (one d w.net state feed).rows) :
    Fetched.Sound d past w store
      (feed.listings d.catalogue.mirror)
      (feed.answered (one d w.net state feed).health)
      (one d w.net state feed) := by
  have hOrigin : feed.origin ∈ feed.listings d.catalogue.mirror :=
    List.mem_cons_self
  have hPrev := hSafe _ hOrigin
  have hRow : ∀ type e, (feed.row type e).type = some type ∧
      (feed.row type e).value = some e.1 :=
    fun _ _ => ⟨rfl, rfl⟩
  unfold one at hStores ⊢
  simp only at hStores ⊢
  cases hGot : (conditionalGet d w.net state feed.origin).1 with
  | unchanged =>
      rcases sound_of_got hPrev (by rw [hGot]; simp)
          (by rw [hGot]; simp) with ⟨hSaved, hCurrent⟩
      exact sound_of_answer hOrigin hSaved hCurrent
  | read entries =>
      simp only [hGot] at hStores
      rcases sound_of_got hPrev (by rw [hGot]; simp)
          (fun _ _ => covered_of_read hRow hGot hStores) with
        ⟨hSaved, hCurrent⟩
      exact sound_of_answer hOrigin hSaved hCurrent
  | failed =>
      simp only [hGot] at hStores
      cases hMirror : lookup feed.name d.catalogue.mirror with
      | none =>
          rw [← List.append_nil
            (conditionalGet d w.net state feed.origin).2]
          refine ⟨safe_of_failed hOrigin hPrev (by simp), ?_⟩
          intro l hAnswered
          cases hAnswered
      | some murl =>
          have hAt : feed.at murl ∈
              feed.listings d.catalogue.mirror := by
            simp [BulkFeed.listings, hMirror]
          have hLine : (feed.at murl).parser.byLine = true :=
            d.catalogue.byLine feed hFeed (by rw [hMirror]; rfl)
          simp only [hMirror] at hStores ⊢
          cases hIs :
              (conditionalGet d w.net state (feed.at murl)).1 with
          | failed =>
              have hNothing :=
                (conditionalGet_keys).2 hIs hLine
              simp only
              rw [hNothing]
              refine ⟨safe_of_failed hOrigin hPrev (by simp), ?_⟩
              intro l hAnswered
              cases hAnswered
          | unchanged =>
              rcases sound_of_got (hSafe _ hAt)
                  (by rw [hIs]; simp) (by rw [hIs]; simp)
                with ⟨hSaved, hCurrent⟩
              refine ⟨safe_of_failed hOrigin hPrev
                (safe_of_entered hAt hSaved), ?_⟩
              intro l hAnswered
              cases hAnswered
              exact ⟨hAt, hCurrent⟩
          | read entries =>
              simp only [hIs] at hStores
              rcases sound_of_got (hSafe _ hAt)
                  (by rw [hIs]; simp)
                  (fun _ _ => covered_of_read hRow hIs hStores)
                with ⟨hSaved, hCurrent⟩
              refine ⟨safe_of_failed hOrigin hPrev
                (safe_of_entered hAt hSaved), ?_⟩
              intro l hAnswered
              cases hAnswered
              exact ⟨hAt, hCurrent⟩

/- So is the fetch of the trail of a family. -/
theorem oneFamily_sound
    {feed : FamilyFeed}
    (hSafe : Safe d past store feed.listing
      (validatorsOf state feed.url))
    (hStores :
      Stores d store (oneFamily d w.net state feed).rows) :
    Fetched.Sound d past w store [feed.listing]
      (feed.answered (oneFamily d w.net state feed).health)
      (oneFamily d w.net state feed) := by
  have hIn : feed.listing ∈ [feed.listing] := List.mem_cons_self
  have hRow : ∀ type e, (feed.row type e).type = some type ∧
      (feed.row type e).value = some e.1 :=
    fun _ _ => ⟨rfl, rfl⟩
  unfold oneFamily at hStores ⊢
  simp only at hStores ⊢
  cases hGot : (conditionalGet d w.net state feed.listing).1 with
  | unchanged =>
      rcases sound_of_got hSafe (by rw [hGot]; simp)
          (by rw [hGot]; simp) with ⟨hSaved, hCurrent⟩
      exact sound_of_answer hIn hSaved hCurrent
  | read entries =>
      simp only [hGot] at hStores
      rcases sound_of_got hSafe (by rw [hGot]; simp)
          (fun _ _ => covered_of_read hRow hGot hStores) with
        ⟨hSaved, hCurrent⟩
      exact sound_of_answer hIn hSaved hCurrent
  | failed =>
      rw [← List.append_nil
        (conditionalGet d w.net state feed.listing).2]
      refine ⟨safe_of_failed hIn hSafe (by simp), ?_⟩
      intro l hAnswered
      cases hAnswered

/- A listing of the catalogue is known by its URL. -/
omit [Unicode] in
theorem listing_of_url
    {l l' : Listing}
    (hListing : l ∈ d.catalogue.listings)
    (hListing' : l' ∈ d.catalogue.listings)
    (hSame : l.url = l'.url) :
    l = l' :=
  List.inj_on_of_nodup_map d.catalogue.distinct hListing
    hListing' hSame

omit [Unicode] in
theorem listings_of_feed
    {feed : BulkFeed}
    (hFeed : feed ∈ d.catalogue.feeds) :
    feed.listings d.catalogue.mirror ⊆ d.catalogue.listings := by
  intro l hL
  exact List.mem_append_left _
    (List.mem_flatMap.mpr ⟨feed, hFeed, hL⟩)

omit [Unicode] in
theorem listing_of_family
    {feed : FamilyFeed}
    (hFeed : feed ∈ d.catalogue.families) :
    [feed.listing] ⊆ d.catalogue.listings := by
  intro l hL
  rw [List.mem_singleton.mp hL]
  exact List.mem_append_right _ (List.mem_map_of_mem hFeed)

/- The fetches of all feeds are sound where their rows are
stored. -/
theorem fetched_sound
    (hSafe : ∀ l ∈ d.catalogue.listings,
      Safe d past store l (validatorsOf state l.url))
    (hStores :
      Stores d store (fetchBulkOsint d w.net state).rows) :
    (∀ feed ∈ d.catalogue.feeds,
        Fetched.Sound d past w store
          (feed.listings d.catalogue.mirror)
          (feed.answered (one d w.net state feed).health)
          (one d w.net state feed)) ∧
      ∀ feed ∈ d.catalogue.families,
        Fetched.Sound d past w store [feed.listing]
          (feed.answered (oneFamily d w.net state feed).health)
          (oneFamily d w.net state feed) := by
  constructor
  · intro feed hFeed
    refine one_sound hFeed
      (fun l hL => hSafe l (listings_of_feed hFeed hL)) ?_
    intro ind hInd
    apply hStores ind
    refine List.mem_flatMap.mpr ⟨_, ?_, hInd⟩
    exact List.mem_append_left _ (List.mem_map_of_mem hFeed)
  · intro feed hFeed
    refine oneFamily_sound
      (hSafe _ (listing_of_family hFeed List.mem_cons_self)) ?_
    intro ind hInd
    apply hStores ind
    refine List.mem_flatMap.mpr ⟨_, ?_, hInd⟩
    exact List.mem_append_right _ (List.mem_map_of_mem hFeed)

/- What the fetch of all feeds saves is safe, and what has
answered is current. -/
theorem fetchBulkOsint_sound
    (hSafe : ∀ l ∈ d.catalogue.listings,
      Safe d past store l (validatorsOf state l.url))
    (hStores :
      Stores d store (fetchBulkOsint d w.net state).rows) :
    (∀ l ∈ d.catalogue.listings,
        Safe d (past ++ [w]) store l
          (validatorsOf
            (fetchBulkOsint d w.net state).lastState l.url)) ∧
      ∀ l ∈ (fetchBulkOsint d w.net state).answered,
        l ∈ d.catalogue.listings ∧
          Current d past w store l := by
  rcases fetched_sound hSafe hStores with ⟨hFeeds, hFamilies⟩
  constructor
  · intro l hL
    unfold validatorsOf
    cases hFound : lookup l.url
        (fetchBulkOsint d w.net state).lastState with
    | none => exact .inl rfl
    | some v =>
        rw [Option.getD_some]
        rcases lookup_flatMap hFound with ⟨f, hF, hSaved⟩
        rcases List.mem_append.mp hF with hOne | hFamily
        · rcases List.mem_map.mp hOne with ⟨feed, hFeed, rfl⟩
          rcases (hFeeds feed hFeed).saved _ _ hSaved with
            ⟨l', hL', hUrl, hIs⟩
          rwa [listing_of_url hL (listings_of_feed hFeed hL')
            hUrl.symm]
        · rcases List.mem_map.mp hFamily with ⟨feed, hFeed, rfl⟩
          rcases (hFamilies feed hFeed).saved _ _ hSaved with
            ⟨l', hL', hUrl, hIs⟩
          rwa [listing_of_url hL (listing_of_family hFeed hL')
            hUrl.symm]
  · intro l hL
    rcases List.mem_append.mp hL with hOne | hFamily
    · rcases List.mem_filterMap.mp hOne with
        ⟨feed, hFeed, hAnswered⟩
      rcases (hFeeds feed hFeed).current l hAnswered with
        ⟨hIn, hCurrent⟩
      exact ⟨listings_of_feed hFeed hIn, hCurrent⟩
    · rcases List.mem_filterMap.mp hFamily with
        ⟨feed, hFeed, hAnswered⟩
      rcases (hFamilies feed hFeed).current l hAnswered with
        ⟨hIn, hCurrent⟩
      exact ⟨listing_of_family hFeed hIn, hCurrent⟩

end

---- Runs

section

variable [Unicode]
variable {d : BulkDeployment}
variable {past : List World}
variable {run : SyncRun}
variable {c : BulkConnector}
variable {store : IocStore}

/- A sync keeps what the store has. -/
theorem runConnector_grows :
    store.values ⊆ (runConnector d run c store).2.1.values := by
  unfold runConnector
  simp only
  split
  · exact importChunks_grows _ _ _
  · exact importChunks_grows _ _ _

/- A sync that completes has stored its rows. -/
theorem runConnector_stores
    (hOk : (runConnector d run c store).2.2 = true) :
    Stores d (runConnector d run c store).2.1
      (fetchBulkOsint d run.world.net c.state).rows := by
  unfold runConnector at hOk ⊢
  simp only at hOk ⊢
  split at hOk
  · cases hOk
  · simp only
    intro ind hInd now source cand hRead
    have hAgain : ∃ cand',
        readIndicator d.tools run.now c.name ind = some cand' ∧
          cand'.value = cand.value :=
      readIndicator_value hRead
    rcases hAgain with ⟨cand', hRead', hValue⟩
    have hRow : ind ∈ fetchRows d run c := by
      unfold fetchRows
      simp only
      split
      · exact hInd
      · exact List.mem_append_left _ hInd
    rw [← hValue]
    exact import_stores hRow hRead'

/- A sync saves safe validators, and what has answered one
that completes is current. -/
theorem runConnector_safe
    (run : SyncRun)
    (hSafe : ∀ l ∈ d.catalogue.listings,
      Safe d past store l (validatorsOf c.state l.url)) :
    (∀ l ∈ d.catalogue.listings,
        Safe d (past ++ [run.world])
          (runConnector d run c store).2.1 l
          (validatorsOf (runConnector d run c store).1
            l.url)) ∧
      ((runConnector d run c store).2.2 = true →
        ∀ l ∈ (fetchBulkOsint d run.world.net
            c.state).answered,
          Current d past run.world
            (runConnector d run c store).2.1 l) := by
  have hNow : ∀ l ∈ d.catalogue.listings,
      Safe d past (runConnector d run c store).2.1 l
        (validatorsOf c.state l.url) := by
    intro l hL
    exact (hSafe l hL).mono (fun _ h => h) runConnector_grows
  have hOld : ∀ l ∈ d.catalogue.listings,
      Safe d (past ++ [run.world])
        (runConnector d run c store).2.1 l
        (validatorsOf c.state l.url) := by
    intro l hL
    exact (hNow l hL).mono (List.subset_append_left _ _)
      fun _ h => h
  constructor
  · intro l hL
    cases hOk : (runConnector d run c store).2.2 with
    | false =>
        have hState : (runConnector d run c store).1 = c.state := by
          unfold runConnector at hOk ⊢
          simp only at hOk ⊢
          split at hOk
          · rfl
          · cases hOk
        rw [hState]
        exact hOld l hL
    | true =>
        have hNew := (fetchBulkOsint_sound hNow
          (runConnector_stores hOk)).1 l hL
        have hState :
            (runConnector d run c store).1 =
              if (fetchBulkOsint d run.world.net
                  c.state).lastState.isEmpty then c.state
              else (fetchBulkOsint d run.world.net
                c.state).lastState := by
          unfold runConnector at hOk ⊢
          simp only at hOk ⊢
          split at hOk
          · cases hOk
          · rfl
        rw [hState]
        split
        · exact hOld l hL
        · exact hNew
  · intro hOk l hL
    exact ((fetchBulkOsint_sound hNow
      (runConnector_stores hOk)).2 l hL).2

/- A step keeps what is saved safe. -/
theorem kept_step
    {s : SyncSystem}
    (hKept : Kept d past s) (event : SyncEvent) :
    Kept d (past ++ event.worlds) (syncStep d s event) := by
  cases event with
  | reset id =>
      intro c hC l hL
      rcases List.mem_map.mp hC with ⟨b, hB, rfl⟩
      split
      · exact .inl rfl
      · exact (hKept b hB l hL).mono
          (List.subset_append_left _ _) fun _ h => h
  | sync run =>
      rw [syncStep]
      cases hFound : s.connector? run.connector with
      | none =>
          intro c hC l hL
          exact (hKept c hC l hL).mono
            (List.subset_append_left _ _) fun _ h => h
      | some c =>
          have hC := List.mem_of_find?_eq_some hFound
          have hSafe := (runConnector_safe run
            (fun l hL => hKept c hC l hL)).1
          simp only
          intro b hB l hL
          rcases List.mem_map.mp hB with ⟨b', hB', rfl⟩
          split
          · exact hSafe l hL
          · exact (hKept b' hB' l hL).mono
              (List.subset_append_left _ _) runConnector_grows

/- So does a run. -/
theorem kept_runs
    {s : SyncSystem}
    (hKept : Kept d past s) (events : List SyncEvent) :
    Kept d (past ++ events.flatMap SyncEvent.worlds)
      (syncRuns d s events) := by
  induction events generalizing past s with
  | nil =>
      rw [List.flatMap_nil, List.append_nil]
      exact hKept
  | cons event rest ih =>
      rw [List.flatMap_cons, ← List.append_assoc, syncRuns,
        List.foldl_cons]
      exact ih (kept_step hKept event)

/- After any syncs and resets, whatever the hosts and their
mirrors have served, and wherever an import has failed, a
sync that completes has in the store what can be imported
of the first entries of every list that has answered, as
far as a download keeps them; of a content that is shorter
than the limits it keeps all. -/
theorem sync_misses_nothing
    {s : SyncSystem}
    {events : List SyncEvent}
    (hStart : ∀ c ∈ s.connectors, c.state = [])
    (hChanges : Distinguishing
      ((events ++ [SyncEvent.sync run]).flatMap SyncEvent.worlds))
    (hFound :
      (syncRuns d s events).connector? run.connector = some c)
    (hOk :
      (runConnector d run c (syncRuns d s events).store).2.2 =
        true) :
    ∀ l ∈ (fetchBulkOsint d run.world.net c.state).answered,
      Covered d
          (syncRuns d s (events ++ [SyncEvent.sync run])).store
          l (run.world.pages l.url).content ∧
        ((run.world.pages l.url).content.length <
            d.bulkFeedMaxBytes →
          (run.world.pages l.url).content.length ≤
            d.maxFeedBytes →
          Holds d
            (syncRuns d s (events ++ [SyncEvent.sync run])).store
            l (run.world.pages l.url).content) := by
  have hFirst : Kept d [] s := by
    intro c hC l _
    rw [hStart c hC]
    exact .inl rfl
  have hKept := kept_runs hFirst events
  rw [List.nil_append] at hKept
  rw [List.flatMap_append, List.flatMap_singleton] at hChanges
  have hStore :
      (syncRuns d s (events ++ [SyncEvent.sync run])).store =
        (runConnector d run c
          (syncRuns d s events).store).2.1 := by
    rw [syncRuns, List.foldl_append, List.foldl_cons,
      List.foldl_nil, syncStep]
    rw [syncRuns] at hFound
    rw [hFound]
    rfl
  rw [hStore]
  intro l hL
  have hCurrent := (runConnector_safe run
    (fun l hL =>
      hKept c (List.mem_of_find?_eq_some hFound) l hL)).2
    hOk l hL
  have hCovered :
      Covered d
        (runConnector d run c (syncRuns d s events).store).2.1 l
        (run.world.pages l.url).content := by
    rcases hCurrent with hIs | ⟨v, hSafe, hShared⟩
    · exact hIs
    · exact covered_of_shared hSafe hShared hChanges
  exact ⟨hCovered, holds_of_short hCovered⟩

end

---- One Host Answers

section

variable [Unicode]
variable {d : BulkDeployment}
variable {net : Str → Validators → Answer}
variable {state : SyncState}

omit [Unicode] in
theorem conditionalGet_failed
    {l : Listing}
    (hFail : ∀ cond, net l.url cond = .failed) :
    conditionalGet d net state l = (.failed, []) := by
  rw [conditionalGet, hFail]

/- A feed none of whose hosts answers adds no row. -/
theorem one_failed
    {feed : BulkFeed}
    (hFail : ∀ l ∈ feed.listings d.catalogue.mirror,
      ∀ cond, net l.url cond = .failed) :
    (one d net state feed).rows = [] ∧
      feed.answered (one d net state feed).health = none := by
  have hOrigin :
      conditionalGet d net state feed.origin = (.failed, []) :=
    conditionalGet_failed (hFail _ List.mem_cons_self)
  unfold one
  simp only [hOrigin]
  cases hMirror : lookup feed.name d.catalogue.mirror with
  | none => exact ⟨rfl, rfl⟩
  | some murl =>
      have hListed :
          feed.at murl ∈ feed.listings d.catalogue.mirror := by
        rw [BulkFeed.listings, hMirror]
        exact List.mem_cons_of_mem _ (List.mem_singleton_self _)
      simp only [conditionalGet_failed (hFail _ hListed)]
      exact ⟨trivial, rfl⟩

omit [Unicode] in
theorem oneFamily_failed
    {feed : FamilyFeed}
    (hFail : ∀ cond, net feed.listing.url cond = .failed) :
    (oneFamily d net state feed).rows = [] ∧
      feed.answered (oneFamily d net state feed).health =
        none := by
  unfold oneFamily
  simp only [conditionalGet_failed hFail]
  exact ⟨trivial, rfl⟩

omit [Unicode] in
/- The URL of a feed is in no other listing. -/
theorem url_of_others
    {before after : List BulkFeed} {feed : BulkFeed}
    (hFeeds : d.catalogue.feeds = before ++ feed :: after) :
    (∀ g ∈ before ++ after,
      ∀ l ∈ g.listings d.catalogue.mirror, l.url ≠ feed.url) ∧
      ∀ g ∈ d.catalogue.families,
        g.listing.url ≠ feed.url := by
  have hDistinct := d.catalogue.distinct
  rw [hFeeds, List.flatMap_append, List.flatMap_cons,
    BulkFeed.listings, List.cons_append, List.append_assoc,
    List.cons_append, List.map_append, List.map_cons,
    List.nodup_middle, List.nodup_cons] at hDistinct
  have hOut := hDistinct.1
  refine ⟨?_, ?_⟩
  · intro g hG l hL hSame
    apply hOut
    rw [← List.map_append, List.mem_map]
    refine ⟨l, ?_, hSame⟩
    simp only [List.mem_append, List.mem_flatMap]
    rcases List.mem_append.mp hG with hBefore | hAfter
    · exact Or.inl ⟨g, hBefore, hL⟩
    · exact Or.inr (Or.inl (Or.inr ⟨g, hAfter, hL⟩))
  · intro g hG hSame
    apply hOut
    rw [← List.map_append, List.mem_map]
    refine ⟨g.listing, ?_, hSame⟩
    simp only [List.mem_append]
    exact Or.inr (Or.inr (List.mem_map_of_mem hG))

/- A sync of a connector stores what it imports. -/
theorem syncRuns_one
    {s : SyncSystem} {run : SyncRun} {c : BulkConnector}
    (hFound : s.connector? run.connector = some c) :
    (syncRuns d s [.sync run]).store =
      (runConnector d run c s.store).2.1 := by
  simp only [syncRuns, List.foldl_cons, List.foldl_nil,
    syncStep, hFound]

/- A sync of the only connector, which was not synced before,
saves what its fetch hands back. -/
theorem syncRuns_found
    {run : SyncRun} {c : BulkConnector}
    (hId : c.id = run.connector) (hEnds : run.failsAfter = none)
    (hNew : c.state = []) (store : IocStore) :
    (syncRuns d ⟨[c], store⟩ [.sync run]).connector?
        run.connector =
      some { c with
        state := (fetchBulkOsint d run.world.net []).lastState
        } := by
  have hSame : (c.id == run.connector) = true := by
    rw [hId]
    exact beq_self_eq_true _
  have hState :
      (runConnector d run c store).1 =
        (fetchBulkOsint d run.world.net []).lastState := by
    simp only [runConnector, hEnds, hNew]
    split
    · rename_i hEmpty
      exact (List.isEmpty_iff.mp hEmpty).symm
    · rfl
  simp only [syncRuns, List.foldl_cons, List.foldl_nil,
    syncStep, hState, setState, List.map_cons, List.map_nil,
    hSame, if_true, SyncSystem.connector?, List.find?_cons]

theorem runConnector_store
    {run : SyncRun} {c : BulkConnector} {store : IocStore}
    (hEnds : run.failsAfter = none) (hKind : c.kind = .osint) :
    (runConnector d run c store).2.1 =
      (importIndicators d.tools run.now c.name d.importBatch
        store (fetchBulkOsint d run.world.net c.state).rows).1 := by
  simp only [runConnector, fetchRows, hEnds, hKind]

/- Where only the host of a feed answers, a fetch has the rows
of that feed. -/
theorem fetchBulkOsint_only
    {feed : BulkFeed}
    (hFeed : feed ∈ d.catalogue.feeds)
    (hNet : ∀ u cond, u ≠ feed.url → net u cond = .failed) :
    (fetchBulkOsint d net state).rows =
        (one d net state feed).rows ∧
      (fetchBulkOsint d net state).answered =
        (feed.answered
          (one d net state feed).health).toList := by
  obtain ⟨before, after, hFeeds⟩ := List.append_of_mem hFeed
  obtain ⟨hOthers, hFamilies⟩ := url_of_others hFeeds
  have hOne :
      ∀ g ∈ before ++ after,
        (one d net state g).rows = [] ∧
          g.answered (one d net state g).health = none := by
    intro g hG
    apply one_failed
    intro l hL cond
    exact hNet _ cond (hOthers g hG l hL)
  have hFamily :
      ∀ g ∈ d.catalogue.families,
        (oneFamily d net state g).rows = [] ∧
          g.answered (oneFamily d net state g).health =
            none := by
    intro g hG
    apply oneFamily_failed
    intro cond
    exact hNet _ cond (hFamilies g hG)
  rw [List.forall_mem_append] at hOne
  have hBefore :
      (before.map (one d net state)).flatMap Fetched.rows =
        [] := by
    rw [List.flatMap_eq_nil_iff, List.forall_mem_map]
    exact fun g hG => (hOne.1 g hG).1
  have hAfter :
      (after.map (one d net state)).flatMap Fetched.rows =
        [] := by
    rw [List.flatMap_eq_nil_iff, List.forall_mem_map]
    exact fun g hG => (hOne.2 g hG).1
  have hTrails :
      (d.catalogue.families.map
        (oneFamily d net state)).flatMap Fetched.rows = [] := by
    rw [List.flatMap_eq_nil_iff, List.forall_mem_map]
    exact fun g hG => (hFamily g hG).1
  constructor
  · simp only [fetchBulkOsint, hFeeds, List.map_append,
      List.map_cons, List.flatMap_append, List.flatMap_cons,
      hBefore, hAfter, hTrails, List.nil_append,
      List.append_nil]
  · have hNone :
        before.filterMap (fun g =>
          g.answered (one d net state g).health) = [] :=
      List.filterMap_eq_nil_iff.mpr
        (fun g hG => (hOne.1 g hG).2)
    have hRest :
        after.filterMap (fun g =>
          g.answered (one d net state g).health) = [] :=
      List.filterMap_eq_nil_iff.mpr
        (fun g hG => (hOne.2 g hG).2)
    have hNoTrail :
        d.catalogue.families.filterMap (fun g =>
          g.answered (oneFamily d net state g).health) = [] :=
      List.filterMap_eq_nil_iff.mpr
        (fun g hG => (hFamily g hG).2)
    simp only [fetchBulkOsint, hFeeds, List.filterMap_append,
      hNone, hNoTrail, List.nil_append, List.append_nil]
    rw [List.filterMap_cons, hRest]
    cases feed.answered (one d net state feed).health with
    | none => rfl
    | some l => rfl

end

---- A List Of Domains

local instance syncUnicode : Unicode := asciiTables

/- The built-in feeds, with a limit on what is downloaded of
each. -/
def deskSync (limit : Nat) : BulkDeployment where
  tools := plainTools
  maxPerFeed := 50000
  bulkFeedMaxBytes := limit
  maxFeedBytes := 67108864
  importBatch := 10000
  catalogue := builtinFeeds
  imports := by decide

/- The limit where none is set. -/
def usualLimit : Nat := 6000000

/- One host answers, with an `ETag`. -/
def onlyHost (url etag : Str) (chunks : List Bytes) : World where
  pages u :=
    if u = url then ⟨chunks.flatten, ⟨some etag, none⟩⟩
    else ⟨[], .blank⟩
  net u cond :=
    if u = url then
      if etag ≠ [] ∧ given cond.etag = some etag then .notModified
      else .body chunks ⟨some etag, none⟩
    else .failed
  honest_body u cond chunks' headers hNet := by
    split at hNet
    · rename_i hUrl
      split at hNet
      · cases hNet
      · cases hNet
        rw [if_pos hUrl]
        exact ⟨rfl, rfl⟩
    · cases hNet
  honest_unchanged u cond hNet := by
    split at hNet
    · rename_i hUrl
      split at hNet
      · rename_i hSame
        rw [if_pos hUrl]
        exact .inl ⟨etag, hSame.2, by simp [given, hSame.1]⟩
      · cases hNet
    · cases hNet

/- The feed of malicious domains. -/
def domainsListing : Listing where
  url :=
    lit "https://raw.githubusercontent.com/" ++
      lit "romainmarcoux/malicious-domains/main/" ++
      lit "full-domains-aa.txt"
  parser := .iplist
  forced := none

/- A sync while it lists some domains, line by line. -/
def domainSync (lines : List String) : SyncRun where
  connector := lit "con-osint"
  now := importTime
  world := onlyHost domainsListing.url (lit "v1")
    (lines.map fun line => asciiBytes (lit line ++ [10]))
  companion := none
  failsAfter := none

/- The connector before its first sync, and after it. -/
def deskConnector (state : SyncState) : BulkConnector :=
  ⟨lit "con-osint", engineName, .osint, state⟩

def desk : SyncSystem :=
  ⟨[deskConnector []], emptyStore⟩

/- A value of the first entries is not in the store after a
sync that completes, though its feed has answered. -/
def Missed
    (limit : Nat)
    (lines : List String)
    (value : Str) : Prop :=
  let d := deskSync limit
  let run := domainSync lines
  let content := (run.world.pages domainsListing.url).content
  (runConnector d run (deskConnector []) emptyStore).2.2 = true ∧
    domainsListing ∈
      (fetchBulkOsint d run.world.net []).answered ∧
    value ∈ ((domainsListing.parser.entries
      (decodeReplace content)).take d.maxPerFeed).map Prod.fst ∧
    value ∉ (syncRuns d desk [.sync run]).store.values

instance
    (limit : Nat)
    (lines : List String)
    (value : Str) :
    Decidable (Missed limit lines value) :=
  inferInstanceAs (Decidable (_ ∧ _ ∧ _ ∧ _))

def domainsFeed : BulkFeed where
  name := lit "Marcoux malicious domains"
  url :=
    lit "https://raw.githubusercontent.com/" ++
      lit "romainmarcoux/malicious-domains/main/full-" ++
      lit "domains-aa.txt"
  parser := .iplist
  forced := none
  confidence := 65
  threat := lit "malware-distribution"

theorem domainsFeed_url :
    domainsFeed.url = domainsListing.url := by
  decide +kernel

theorem domainsFeed_origin :
    domainsFeed.origin = domainsListing := by
  rw [BulkFeed.origin, BulkFeed.at, domainsFeed_url]
  rfl

theorem domainsFeed_mem :
    domainsFeed ∈ bulkFeeds :=
  List.mem_of_getElem? (i := 13) rfl

/- The sync of a list fetches from that feed only. -/
theorem domainSync_fetch
    (limit : Nat) (lines : List String) (state : SyncState) :
    (fetchBulkOsint (deskSync limit) (domainSync lines).world.net
        state).rows =
        (one (deskSync limit) (domainSync lines).world.net state
          domainsFeed).rows ∧
      (fetchBulkOsint (deskSync limit)
        (domainSync lines).world.net state).answered =
        (domainsFeed.answered
          (one (deskSync limit) (domainSync lines).world.net
            state domainsFeed).health).toList := by
  apply fetchBulkOsint_only domainsFeed_mem
  intro u cond hOther
  rw [domainsFeed_url] at hOther
  exact if_neg hOther

/- What the host sends of a list. -/
def linesSent (lines : List String) : List Bytes :=
  lines.map fun line => asciiBytes (lit line ++ [10])

structure ListRead
    (limit : Nat)
    (lines : List String)
    (body : Bytes)
    (entries : List Entry) : Prop where
  read : readBody (deskSync limit) (linesSent lines) = some body
  parsed :
    BulkParser.iplist.parse 50000 (decodeReplace body) =
      some entries

/- What the host answers to a request. -/
theorem domainSync_net
    (lines : List String) (cond : Validators) :
    (domainSync lines).world.net domainsListing.url cond =
      if lit "v1" ≠ [] ∧ given cond.etag = some (lit "v1") then
        .notModified
      else
        .body (linesSent lines) ⟨some (lit "v1"), none⟩ := by
  simp only [domainSync, onlyHost, if_true, linesSent]

theorem ListRead.first
    {limit : Nat} {lines : List String} {body : Bytes}
    {entries : List Entry}
    (hList : ListRead limit lines body entries) :
    (one (deskSync limit) (domainSync lines).world.net []
      domainsFeed).rows =
        rowsOf none domainsFeed.row entries := by
  have hNet :
      (domainSync lines).world.net domainsListing.url
          Validators.blank.sent =
        .body (linesSent lines) ⟨some (lit "v1"), none⟩ := by
    rw [domainSync_net, if_neg]
    rintro ⟨-, hSame⟩
    cases hSame
  have hGet :
      (conditionalGet (deskSync limit) (domainSync lines).world.net
        [] domainsListing).1 = .read entries := by
    have hPrev :
        validatorsOf [] domainsListing.url = .blank := rfl
    simp only [conditionalGet, hPrev, hNet, hList.read]
    have hParsed :
        domainsListing.parser.parse (deskSync limit).maxPerFeed
          (decodeReplace body) = some entries :=
      hList.parsed
    simp only [hParsed]
  rw [one]
  simp only [domainsFeed_origin, hGet]
  rfl

/- A list is answered for, changed or not. -/
theorem ListRead.answered
    {limit : Nat} {lines : List String} {body : Bytes}
    {entries : List Entry}
    (hList : ListRead limit lines body entries)
    (state : SyncState) :
    domainsFeed.answered
        (one (deskSync limit) (domainSync lines).world.net state
          domainsFeed).health =
      some domainsListing := by
  have hNet :
      (domainSync lines).world.net domainsListing.url
          (validatorsOf state domainsListing.url).sent =
          .notModified ∨
        (domainSync lines).world.net domainsListing.url
          (validatorsOf state domainsListing.url).sent =
          .body (linesSent lines) ⟨some (lit "v1"), none⟩ := by
    by_cases hSame :
        lit "v1" ≠ [] ∧
          given (validatorsOf state
            domainsListing.url).sent.etag = some (lit "v1")
    · left
      rw [domainSync_net, if_pos hSame]
    · right
      rw [domainSync_net, if_neg hSame]
  have hGet :
      (conditionalGet (deskSync limit) (domainSync lines).world.net
          state domainsListing).1 = .unchanged ∨
        (conditionalGet (deskSync limit)
          (domainSync lines).world.net state domainsListing).1 =
            .read entries := by
    rcases hNet with hSame | hBody
    · left
      simp only [conditionalGet, hSame]
    · right
      have hParsed :
          domainsListing.parser.parse (deskSync limit).maxPerFeed
            (decodeReplace body) = some entries :=
        hList.parsed
      simp only [conditionalGet, hBody, hList.read, hParsed]
  rw [one]
  rcases hGet with hUnchanged | hRead
  · simp only [domainsFeed_origin, hUnchanged,
      BulkFeed.answered]
  · simp only [domainsFeed_origin, hRead, BulkFeed.answered]

/- A value of the list that the import does not keep. -/
theorem ListRead.missed
    {limit : Nat} {lines : List String} {body : Bytes}
    {entries : List Entry} {value : Str}
    (hList : ListRead limit lines body entries)
    (hEntry :
      value ∈ ((BulkParser.iplist.entries (decodeReplace
        (linesSent lines).flatten)).take 50000).map Prod.fst)
    (hMissed :
      value ∉ (importIndicators plainTools importTime engineName
        10000 emptyStore
        (rowsOf none domainsFeed.row entries)).1.values) :
    Missed limit lines value := by
  have hFound :
      desk.connector? (domainSync lines).connector =
        some (deskConnector []) := by
    simp only [SyncSystem.connector?, desk, deskConnector,
      domainSync, List.find?_cons, beq_self_eq_true]
  have hStore :
      (syncRuns (deskSync limit) desk
          [.sync (domainSync lines)]).store =
        (importIndicators plainTools importTime engineName 10000
          emptyStore (fetchBulkOsint (deskSync limit)
            (domainSync lines).world.net []).rows).1 := by
    rw [syncRuns_one hFound, runConnector_store rfl rfl]
    rfl
  have hContent :
      ((domainSync lines).world.pages
        domainsListing.url).content =
          (linesSent lines).flatten := by
    simp only [domainSync, onlyHost, if_true, linesSent]
  refine ⟨rfl, ?_, ?_, ?_⟩
  · rw [(domainSync_fetch limit lines []).2, hList.answered]
    exact List.mem_singleton_self _
  · rw [hContent]
    exact hEntry
  · rw [hStore, (domainSync_fetch limit lines []).1,
      hList.first]
    exact hMissed

/- A name without a dot is of no type, a port is stripped, and
a line beyond the limit is not downloaded. -/
theorem first_entries_missed :
    Missed usualLimit ["localhost"] (lit "localhost") ∧
      Missed usualLimit ["6.6.6.6:80"] (lit "6.6.6.6:80") ∧
      Missed 16 ["a.test", "evil.test", "last.test"]
        (lit "last.test") := by
  have hName :
      ListRead usualLimit ["localhost"]
        [108, 111, 99, 97, 108, 104, 111, 115, 116, 10]
        [([108, 111, 99, 97, 108, 104, 111, 115, 116], [])] :=
    ⟨by decide +kernel, by decide +kernel⟩
  have hPort :
      ListRead usualLimit ["6.6.6.6:80"]
        [54, 46, 54, 46, 54, 46, 54, 58, 56, 48, 10]
        [([54, 46, 54, 46, 54, 46, 54, 58, 56, 48], [])] :=
    ⟨by decide +kernel, by decide +kernel⟩
  have hCut :
      ListRead 16 ["a.test", "evil.test", "last.test"]
        [97, 46, 116, 101, 115, 116, 10, 101, 118, 105, 108,
         46, 116, 101, 115, 116, 10]
        [([97, 46, 116, 101, 115, 116], []),
          ([101, 118, 105, 108, 46, 116, 101, 115, 116], [])] :=
    ⟨by decide +kernel, by decide +kernel⟩
  refine ⟨?_, ?_, ?_⟩
  · exact hName.missed (by decide +kernel) (by decide +kernel)
  · exact hPort.missed (by decide +kernel) (by decide +kernel)
  · exact hCut.missed (by decide +kernel) (by decide +kernel)

/- A sync while two domains are listed. -/
def twoDomains : SyncRun := domainSync ["a.test", "b.test"]

/- Two syncs of one list, which has not changed at the second,
hold all of it. -/
theorem unchanged_list_held :
    Holds (deskSync usualLimit)
      (syncRuns (deskSync usualLimit) desk
        ([SyncEvent.sync twoDomains] ++
          [SyncEvent.sync twoDomains])).store
      domainsListing
      (twoDomains.world.pages domainsListing.url).content := by
  have hWorlds :
      ([SyncEvent.sync twoDomains] ++
          [SyncEvent.sync twoDomains]).flatMap SyncEvent.worlds =
        [twoDomains.world, twoDomains.world] :=
    rfl
  have hSame : Distinguishing
      (([SyncEvent.sync twoDomains] ++
        [SyncEvent.sync twoDomains]).flatMap
          SyncEvent.worlds) := by
    rw [hWorlds]
    intro v hV w hW url _
    have hIs : v = w := by
      simp only [List.mem_cons, List.not_mem_nil, or_false,
        or_self] at hV hW
      rw [hV, hW]
    rw [hIs]
  have hFound :
      (syncRuns (deskSync usualLimit) desk
          [SyncEvent.sync twoDomains]).connector?
            twoDomains.connector =
        some (deskConnector
          (fetchBulkOsint (deskSync usualLimit)
            twoDomains.world.net []).lastState) :=
    syncRuns_found rfl rfl rfl emptyStore
  have hList :
      ListRead usualLimit ["a.test", "b.test"]
        [97, 46, 116, 101, 115, 116, 10, 98, 46, 116, 101,
         115, 116, 10]
        [([97, 46, 116, 101, 115, 116], []),
          ([98, 46, 116, 101, 115, 116], [])] :=
    ⟨by decide +kernel, by decide +kernel⟩
  have hAnswered :
      domainsListing ∈
        (fetchBulkOsint (deskSync usualLimit) twoDomains.world.net
          (fetchBulkOsint (deskSync usualLimit)
            twoDomains.world.net []).lastState).answered := by
    rw [twoDomains, (domainSync_fetch _ _ _).2, hList.answered]
    exact List.mem_singleton_self _
  have hHeld := sync_misses_nothing
    (by simp [desk, deskConnector]) hSame hFound rfl
    domainsListing hAnswered
  exact hHeld.2 (by decide) (by decide +kernel)

end ThreatOrbit.Connectors
