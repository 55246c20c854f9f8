import AxonaBridge.NodeModel
import AxonaBridge.Runs

/-!
# The directory publisher

`startDirectoryPublisher` of `bridge_directory.js`: the establishment gate, the start-up sequence, the
heartbeat and `republish`, with every publish a loop over regions that waits for `peer.pub` between
two of them. The clock, the size of the mesh and the book of known bridges are inputs of each event;
what the kernel makes of coordinates, regions and entries is a parameter.
-/

open JsText

namespace AxonaBridge

/-- `i >= x` for an integer `i`. -/
def atLeast (i : Int) : JsNum → Bool
  | .fin q => q ≤ i
  | .inf negative => negative
  | .nan => false

theorem atLeast_mono {i j : Int} (hij : i ≤ j) {x : JsNum} (h : atLeast i x = true) :
    atLeast j x = true := by
  cases x with
  | fin q =>
      have hq : q ≤ i := of_decide_eq_true h
      exact decide_eq_true (hq.trans (Int.cast_le.mpr hij))
  | inf negative => exact h
  | nan => exact h

namespace Directory

abbrev Region := JsString

/-- A latitude and a longitude, as far as they are given. -/
structure Place where
  lat : Option JsNum := none
  lng : Option JsNum := none

/-- What `buildBridgeEntry` is given. -/
structure EntryFields where
  url : JsString
  place : Place
  label : JsString
  ver : JsString
  turn : Option JsString

structure Config where
  /-- `BRIDGE_DIRECTORY` -/
  directory : Option JsString := none
  /-- `BRIDGE_PUBLIC_URL` -/
  publicUrl : Option JsString := none
  place : Place := {}
  label : JsString := []
  version : JsString := []
  turnUrls : Option JsString := none
  /-- There is a book to persist discovered bridges in. -/
  hasBook : Bool := true
  bootAt : Int := 0
  /-- `Number(env.BRIDGE_DIRECTORY_MIN_UPTIME_MS ?? 5 * 60_000)` -/
  minUptimeMs : JsNum := .fin 300000
  /-- `Number(env.BRIDGE_DIRECTORY_MIN_PEERS ?? 3)` -/
  minPeers : JsNum := .fin 3
  resolveRegion : Region → Option Int
  regionNameForLatLng : Place → Option Region
  /-- The entry made at a time, or the message `buildBridgeEntry` throws. -/
  buildBridgeEntry : Int → EntryFields → Except JsString JsVal

/-- What an event finds outside the publisher. -/
structure Io where
  now : Int
  /-- The number of entries of `peer.peers()`, where it answers. -/
  peers : Option Nat := none
  /-- The places of the bridges in the book. -/
  book : List Place := []

inductive Out where
  | log (event : JsString) (fields : List (JsString × LogVal))
  | pub (region : Region) (entry : JsVal) (signed : Bool)
  | setAuthorClass (label : JsString)
  | sub (region : Region)
  /-- `stop` of the subscription in a region. -/
  | unsub (region : Region)

def logNum (x : JsNum) : LogVal := .json (.num x) rfl

/-! ### Regions -/

/-- `DIRECTORY_HOME_REGION` -/
def homeRegion : Region := js "eagle"

/-- `DIRECTORY_NEVER_REGIONS` -/
def neverRegions : List Region := [js "bridge"]

/-- The key a region is kept under: its code, or the spelling of a name the kernel does not resolve. -/
inductive RegionKey where
  | code (code : Int)
  | name (region : Region)
  deriving DecidableEq

namespace Config

variable (cfg : Config)

def regionKey (r : Region) : RegionKey :=
  match cfg.resolveRegion r with
  | none => .name r
  | some code => .code code

/-- `add` of `bridgeRegions` -/
def addRegion (byKey : JsMap RegionKey Region) : Option Region → JsMap RegionKey Region
  | none => byKey
  | some r =>
      if r = [] ∨ byKey.has (cfg.regionKey r) then byKey else byKey.set (cfg.regionKey r) r

def bridgeRegions (book : List Place) : List Region :=
  let byKey := cfg.addRegion JsMap.empty (some homeRegion)
  let byKey := cfg.addRegion byKey (cfg.regionNameForLatLng cfg.place)
  let byKey := book.foldl (fun byKey e => cfg.addRegion byKey (cfg.regionNameForLatLng e)) byKey
  let byKey := neverRegions.foldl (fun byKey r => byKey.delete (cfg.regionKey r)) byKey
  byKey.entries.map Prod.snd

/-- The publisher is on: the directory is not off and the public URL passes the test
`/^wss:\/\/[^\s]+$/`. -/
def isEnabled : Bool :=
  toLowerCase (cfg.directory.getD (js "on")) ≠ js "off" &&
    cfg.publicUrl.any fun url => url.take 6 = js "wss://" && url.drop 6 ≠ [] &&
      (url.drop 6).all fun u => !isSpace u

def url : JsString := cfg.publicUrl.getD []

def makeEntry (now : Int) : Except JsString JsVal :=
  cfg.buildBridgeEntry now
    { url := cfg.url, place := cfg.place, label := cfg.label, ver := cfg.version, turn := cfg.turnUrls }

/-! ### The gate -/

structure Establishment where
  ok : Bool
  upMs : Int
  peers : Nat

def establishment (io : Io) : Establishment :=
  let upMs := io.now - cfg.bootAt
  let peers := io.peers.getD 0
  { ok := atLeast upMs cfg.minUptimeMs && atLeast peers cfg.minPeers, upMs, peers }

end Config

/-! ### The publisher -/

/-- What the start-up sequence is waiting for. -/
inductive Startup where
  /-- `ensureAuthor` -/
  | author
  /-- The next tick of `whenEstablished`. -/
  | polling
  /-- `whenEstablished` has resolved. -/
  | established
  /-- `publish('established')` -/
  | publishing
  /-- `publish('established')` has returned. -/
  | published
  /-- `peer.setAuthorClass` -/
  | declaring
  /-- `peer.sub` in one region, with those opened before it and those to come. -/
  | subscribing (subs : List Region) (region : Region) (rest : List Region)
  | finished
  deriving DecidableEq

/-- The start-up sequence has not come to its subscriptions. -/
def Startup.isEarly : Startup → Bool
  | .subscribing _ _ _ => false
  | .finished => false
  | _ => true

/-- A publish that waits for `peer.pub` in one region. -/
structure Publishing where
  reason : JsString
  region : Region
  rest : List Region
  entry : JsVal
  /-- The start-up sequence goes on when it is through. -/
  starts : Bool

structure Publisher where
  startup : Startup := .author
  author : Bool := false
  stopped : Bool := false
  publishing : List Publishing := []
  /-- The subscriptions that `sub.stop` stops. -/
  sub : Option (List Region) := none

inductive Event where
  | authorReady (ok : Bool)
  | tick
  | resume
  | declare
  | heartbeat
  | republish (reason : JsString)
  /-- The `peer.pub` a publish waits for resolves or rejects. -/
  | pubSettles (i : Nat) (res : Except JsString Unit)
  | classSettles (res : Except JsString Unit)
  | subSettles (res : Except JsString Unit)
  | stop

namespace Publisher

variable (cfg : Config) (io : Io) (p : Publisher)

/-- A publish returns, to the start-up sequence where that waits for it. -/
def afterPublish (starts : Bool) : Publisher := if starts then { p with startup := .published } else p

/-- `publish`, up to its first `await`. -/
def publish (reason : JsString) (starts : Bool) : Publisher × List Out :=
  let est := cfg.establishment io
  if !est.ok then
    (p.afterPublish starts, [.log (js "publish-deferred") [(js "reason", .str reason),
      (js "upMs", .int est.upMs), (js "peers", .int est.peers)]])
  else
    match cfg.bridgeRegions io.book with
    | [] =>
        (p.afterPublish starts, [.log (js "publish-skipped") [(js "reason", .str reason),
          (js "why", .str (js "no known bridge region"))]])
    | region :: rest =>
        match cfg.makeEntry io.now with
        | .error _ => (if starts then { p with startup := .finished } else p, [])
        | .ok entry =>
            ({ p with
                startup := if starts then .publishing else p.startup
                publishing := p.publishing ++ [{ reason, region, rest, entry, starts }] },
              [.pub region entry p.author])

/-- One publish goes on after its `await`. -/
def pubSettles (i : Nat) (res : Except JsString Unit) : Publisher × List Out :=
  match p.publishing[i]? with
  | none => (p, [])
  | some w =>
      let row : Out := match res with
        | .ok _ => .log (js "published") [(js "url", .str cfg.url), (js "reason", .str w.reason),
            (js "region", .str w.region)]
        | .error err => .log (js "publish-failed") [(js "reason", .str w.reason),
            (js "region", .str w.region), (js "err", .str err)]
      match w.rest with
      | [] =>
          (({ p with publishing := p.publishing.eraseIdx i } : Publisher).afterPublish w.starts, [row])
      | region :: rest =>
          ({ p with publishing := p.publishing.set i { w with region, rest } },
            [row, .pub region w.entry p.author])

/-- `tick` of `whenEstablished` -/
def tick : Publisher × List Out :=
  if p.stopped then ({ p with startup := .finished }, [])
  else
    let est := cfg.establishment io
    if est.ok then
      ({ p with startup := .established }, [.log (js "established") [(js "upMs", .int est.upMs),
        (js "peers", .int est.peers), (js "minUptimeMs", logNum cfg.minUptimeMs),
        (js "minPeers", logNum cfg.minPeers)]])
    else
      ({ p with startup := .polling }, [.log (js "awaiting-establishment")
        [(js "upMs", .int est.upMs), (js "peers", .int est.peers),
          (js "needUptimeMs", logNum cfg.minUptimeMs), (js "needPeers", logNum cfg.minPeers)]])

/-- The subscriptions of the start-up sequence, from one region on, after those in `subs`. -/
def subscribe (subs : List Region) : List Region → Publisher × List Out
  | [] => ({ p with startup := .finished, sub := some subs }, [])
  | region :: rest => ({ p with startup := .subscribing subs region rest }, [.sub region])

def act : Event → Publisher × List Out
  | .authorReady ok =>
      if ok then ({ p with author := true } : Publisher).tick cfg io
      else ({ p with startup := .finished }, [])
  | .tick => p.tick cfg io
  | .resume => p.publish cfg io (js "established") true
  | .declare => ({ p with startup := .declaring }, [.setAuthorClass cfg.url])
  | .heartbeat => p.publish cfg io (js "heartbeat") false
  | .republish reason => p.publish cfg io reason false
  | .pubSettles i res => p.pubSettles cfg i res
  | .classSettles res =>
      let row : Out := match res with
        | .ok _ => .log (js "class-declared") [(js "class", .str (js "bridge"))]
        | .error err => .log (js "class-failed") [(js "err", .str err)]
      let r := if cfg.hasBook then p.subscribe [] (cfg.bridgeRegions io.book)
        else ({ p with startup := .finished }, [])
      (r.1, row :: r.2)
  | .subSettles res =>
      match p.startup, res with
      | .subscribing subs region rest, .ok _ => p.subscribe (subs ++ [region]) rest
      | _, .ok _ => (p, [])
      | _, .error err => ({ p with startup := .finished },
          [.log (js "subscribe-failed") [(js "err", .str err)]])
  | .stop => ({ p with stopped := true }, (p.sub.getD []).map .unsub)

/-- When each event can happen. `stop` clears the timer of the heartbeat. -/
def Enabled : Event → Prop
  | .authorReady _ => p.startup = .author
  | .tick => p.startup = .polling
  | .resume => p.startup = .established
  | .declare => p.startup = .published
  | .heartbeat => p.stopped = false
  | .pubSettles i _ => i < p.publishing.length
  | .classSettles _ => p.startup = .declaring
  | .subSettles _ => ∃ subs region rest, p.startup = .subscribing subs region rest
  | _ => True

end Publisher

/-- What the clock reads at an event. -/
def time (e : Io × Event) : Int := e.1.now

/-- The publisher of an enabled directory, from the call of `startDirectoryPublisher` on. -/
def system (cfg : Config) : System Publisher (Io × Event) where
  init := {}
  enabled p e := cfg.isEnabled = true ∧ p.Enabled e.2
  step p e := (p.act cfg e.1 e.2).1

/-! ### The gate along a run -/

/-- Every `peer.pub` of the event is called with the uptime and the mesh of an established bridge. -/
def PubsEstablished (cfg : Config) (p : Publisher) (e : Io × Event) : Prop :=
  ∀ region entry signed, .pub region entry signed ∈ (p.act cfg e.1 e.2).2 →
    atLeast (e.1.now - cfg.bootAt) cfg.minUptimeMs = true ∧
      atLeast (e.1.peers.getD 0) cfg.minPeers = true

/-- The event lets a publish go on to another region. -/
def Publisher.goesOn (p : Publisher) : Event → Bool
  | .pubSettles i _ => (p.publishing[i]?).any fun w => w.rest ≠ []
  | _ => false

/-- The bridge is established whenever a publish goes on to another region. -/
def StaysEstablished (cfg : Config) (p : Publisher) (e : Io × Event) : Prop :=
  p.goesOn e.2 = true → (cfg.establishment e.1).ok = true

/-- The mesh has its least size whenever a publish goes on to another region. -/
def MeshStays (cfg : Config) (p : Publisher) (e : Io × Event) : Prop :=
  p.goesOn e.2 = true → atLeast (e.1.peers.getD 0) cfg.minPeers = true

variable {cfg : Config} {io : Io} {p : Publisher} {region : Region} {entry : JsVal} {signed : Bool}

theorem Config.establishment_ok_iff : (cfg.establishment io).ok = true ↔
    atLeast (io.now - cfg.bootAt) cfg.minUptimeMs = true ∧
      atLeast (io.peers.getD 0) cfg.minPeers = true :=
  Bool.and_eq_true_iff

/-! ### What an event does -/

/-- A publish that begins now calls `peer.pub` in `region`. -/
def Config.Publishes (cfg : Config) (io : Io) (region : Region) (rest : List Region) (entry : JsVal) : Prop :=
  (cfg.establishment io).ok = true ∧ cfg.bridgeRegions io.book = region :: rest ∧
    cfg.makeEntry io.now = .ok entry

/-- A publish that begins now throws. -/
def Config.Throws (cfg : Config) (io : Io) : Prop :=
  (cfg.establishment io).ok = true ∧ cfg.bridgeRegions io.book ≠ [] ∧ ∃ err, cfg.makeEntry io.now = .error err

/-- The publish an event calls: its reason, and whether the start-up sequence waits for it. -/
def Event.publish : Event → Option (JsString × Bool)
  | .resume => some (js "established", true)
  | .heartbeat => some (js "heartbeat", false)
  | .republish reason => some (reason, false)
  | _ => none

/-- All that an event can do. -/
inductive Moves (cfg : Config) (io : Io) (p : Publisher) : Event → Publisher → List Out → Prop
  | authorFails : Moves cfg io p (.authorReady false) { p with startup := .finished } []
  | polls {e : Event} {author : Bool} {startup : Startup} {rows : List Out}
      (he : e = .authorReady true ∨ e = .tick)
      (hstartup : startup = .finished ∨ (p.stopped = false ∧ (startup = .polling ∨ startup = .established)))
      (hrows : ∀ o ∈ rows, ∃ event fields, o = .log event fields) :
      Moves cfg io p e { p with author, startup } rows
  | publishes {e : Event} {reason : JsString} {starts : Bool} {region : Region} {rest : List Region} {entry : JsVal}
      (he : e.publish = some (reason, starts)) (h : cfg.Publishes io region rest entry) :
      Moves cfg io p e
        { p with
          startup := if starts then .publishing else p.startup
          publishing := p.publishing ++ [{ reason, region, rest, entry, starts }] } [.pub region entry p.author]
  | throws {e : Event} {reason : JsString} {starts : Bool} (he : e.publish = some (reason, starts))
      (h : cfg.Throws io) : Moves cfg io p e (if starts then { p with startup := .finished } else p) []
  | defers {e : Event} {reason : JsString} {starts : Bool} {event : JsString} {fields : List (JsString × LogVal)}
      (he : e.publish = some (reason, starts)) (hnot : ∀ region rest entry, ¬cfg.Publishes io region rest entry)
      (hthrows : ¬cfg.Throws io) : Moves cfg io p e (p.afterPublish starts) [.log event fields]
  | goesOn {i : Nat} {res : Except JsString Unit} {w : Publishing} {region : Region} {rest : List Region}
      {event : JsString} {fields : List (JsString × LogVal)} (hw : p.publishing[i]? = some w)
      (hrest : w.rest = region :: rest) :
      Moves cfg io p (.pubSettles i res) { p with publishing := p.publishing.set i { w with region, rest } }
        [.log event fields, .pub region w.entry p.author]
  | returns {i : Nat} {res : Except JsString Unit} {w : Publishing} {event : JsString}
      {fields : List (JsString × LogVal)} (hw : p.publishing[i]? = some w) (hrest : w.rest = []) :
      Moves cfg io p (.pubSettles i res)
        (({ p with publishing := p.publishing.eraseIdx i } : Publisher).afterPublish w.starts) [.log event fields]
  | nobodyWaits {i : Nat} {res : Except JsString Unit} (hnone : p.publishing[i]? = none) :
      Moves cfg io p (.pubSettles i res) p []
  | declares : Moves cfg io p .declare { p with startup := .declaring } [.setAuthorClass cfg.url]
  | subscribes {res : Except JsString Unit} {region : Region} {rest : List Region} {event : JsString}
      {fields : List (JsString × LogVal)} (hbook : cfg.hasBook = true)
      (hregions : cfg.bridgeRegions io.book = region :: rest) :
      Moves cfg io p (.classSettles res) { p with startup := .subscribing [] region rest }
        [.log event fields, .sub region]
  | subscribesNowhere {res : Except JsString Unit} {event : JsString} {fields : List (JsString × LogVal)}
      (hbook : cfg.hasBook = true) (hregions : cfg.bridgeRegions io.book = []) :
      Moves cfg io p (.classSettles res) { p with startup := .finished, sub := some [] } [.log event fields]
  | noBook {res : Except JsString Unit} {event : JsString} {fields : List (JsString × LogVal)}
      (hbook : cfg.hasBook = false) :
      Moves cfg io p (.classSettles res) { p with startup := .finished } [.log event fields]
  | opens {subs : List Region} {region next : Region} {rest : List Region}
      (hstartup : p.startup = .subscribing subs region (next :: rest)) :
      Moves cfg io p (.subSettles (.ok ())) { p with startup := .subscribing (subs ++ [region]) next rest }
        [.sub next]
  | opensLast {subs : List Region} {region : Region} (hstartup : p.startup = .subscribing subs region []) :
      Moves cfg io p (.subSettles (.ok ())) { p with startup := .finished, sub := some (subs ++ [region]) } []
  | opensNothing (hstartup : ∀ subs region rest, p.startup ≠ .subscribing subs region rest) :
      Moves cfg io p (.subSettles (.ok ())) p []
  | rejected {err : JsString} {event : JsString} {fields : List (JsString × LogVal)} :
      Moves cfg io p (.subSettles (.error err)) { p with startup := .finished } [.log event fields]
  | stops : Moves cfg io p .stop { p with stopped := true } ((p.sub.getD []).map .unsub)

namespace Publisher

theorem publishing_afterPublish {starts : Bool} : (p.afterPublish starts).publishing = p.publishing := by
  cases starts <;> rfl

theorem moves_tick {e : Event} (he : e = .authorReady true ∨ e = .tick) (author : Bool) :
    Moves cfg io p e (({ p with author } : Publisher).tick cfg io).1
      (({ p with author } : Publisher).tick cfg io).2 := by
  unfold tick
  dsimp only
  by_cases hstopped : p.stopped = true
  · rw [if_pos hstopped]
    exact .polls he (Or.inl rfl) fun o ho => by cases ho
  · rw [if_neg hstopped]
    have hrunning : p.stopped = false := Bool.not_eq_true _ |>.mp hstopped
    split
    · exact .polls he (Or.inr ⟨hrunning, Or.inr rfl⟩) fun o ho => ⟨_, _, List.mem_singleton.mp ho⟩
    · exact .polls he (Or.inr ⟨hrunning, Or.inl rfl⟩) fun o ho => ⟨_, _, List.mem_singleton.mp ho⟩

theorem moves_publish {e : Event} {reason : JsString} {starts : Bool} (he : e.publish = some (reason, starts)) :
    Moves cfg io p e (p.publish cfg io reason starts).1 (p.publish cfg io reason starts).2 := by
  unfold publish
  dsimp only
  cases hok : (cfg.establishment io).ok with
  | false =>
      refine .defers he (fun region rest entry h => ?_) fun h => ?_
      · exact Bool.false_ne_true (hok.symm.trans h.1)
      · exact Bool.false_ne_true (hok.symm.trans h.1)
  | true =>
      rw [if_neg (by simp)]
      cases hregions : cfg.bridgeRegions io.book with
      | nil =>
          refine .defers he (fun region rest entry h => ?_) fun h => h.2.1 hregions
          cases hregions.symm.trans h.2.1
      | cons region rest =>
          dsimp only
          cases hentry : cfg.makeEntry io.now with
          | error err => exact .throws he ⟨hok, by rw [hregions]; exact List.cons_ne_nil _ _, err, hentry⟩
          | ok entry => exact .publishes he ⟨hok, hregions, hentry⟩

theorem moves_pubSettles (i : Nat) (res : Except JsString Unit) :
    Moves cfg io p (.pubSettles i res) (p.pubSettles cfg i res).1 (p.pubSettles cfg i res).2 := by
  unfold pubSettles
  cases hw : p.publishing[i]? with
  | none => exact .nobodyWaits hw
  | some w =>
      dsimp only
      cases hrest : w.rest with
      | nil => cases res <;> exact .returns hw hrest
      | cons region rest => cases res <;> exact .goesOn hw hrest

theorem moves_classSettles (res : Except JsString Unit) :
    Moves cfg io p (.classSettles res) (p.act cfg io (.classSettles res)).1
      (p.act cfg io (.classSettles res)).2 := by
  unfold act
  dsimp only
  cases hbook : cfg.hasBook with
  | false => cases res <;> exact .noBook hbook
  | true =>
      rw [if_pos rfl]
      cases hregions : cfg.bridgeRegions io.book with
      | nil => cases res <;> exact .subscribesNowhere hbook hregions
      | cons region rest => cases res <;> exact .subscribes hbook hregions

theorem moves_subSettles (res : Except JsString Unit) :
    Moves cfg io p (.subSettles res) (p.act cfg io (.subSettles res)).1 (p.act cfg io (.subSettles res)).2 := by
  cases res with
  | error err =>
      unfold act
      dsimp only
      cases p.startup <;> exact .rejected
  | ok u =>
      unfold act
      dsimp only
      cases hstartup : p.startup with
      | subscribing subs region rest =>
          cases rest with
          | nil => exact .opensLast hstartup
          | cons next rest => exact .opens hstartup
      | _ =>
          refine .opensNothing fun subs region rest heq => ?_
          cases hstartup.symm.trans heq

/-- **What an event does.** -/
theorem moves (cfg : Config) (io : Io) (p : Publisher) (e : Event) :
    Moves cfg io p e (p.act cfg io e).1 (p.act cfg io e).2 := by
  cases e with
  | authorReady ok =>
      cases ok with
      | true => exact moves_tick (Or.inl rfl) true
      | false => exact .authorFails
  | tick => exact moves_tick (Or.inr rfl) p.author
  | resume => exact moves_publish rfl
  | declare => exact .declares
  | heartbeat => exact moves_publish rfl
  | republish reason => exact moves_publish rfl
  | pubSettles i res => exact moves_pubSettles i res
  | classSettles res => exact moves_classSettles res
  | subSettles res => exact moves_subSettles res
  | stop => exact .stops

theorem goesOn_pubSettles {i : Nat} {res : Except JsString Unit} :
    p.goesOn (.pubSettles i res) = (p.publishing[i]?).any fun w => w.rest ≠ [] := rfl

/-- A call of `peer.pub` comes through the gate or from a publish that goes on. -/
theorem established_or_goesOn {e : Event} (h : Out.pub region entry signed ∈ (p.act cfg io e).2) :
    (cfg.establishment io).ok = true ∨ p.goesOn e = true := by
  have hmoves := moves cfg io p e
  generalize (p.act cfg io e).1 = p' at hmoves
  generalize (p.act cfg io e).2 = out at h hmoves
  cases hmoves with
  | polls he hstartup hrows =>
      obtain ⟨event, fields, hlog⟩ := hrows _ h
      cases hlog
  | publishes he hpublishes => exact Or.inl hpublishes.1
  | goesOn hw hrest =>
      refine Or.inr ?_
      rw [goesOn_pubSettles, hw, Option.any_some, hrest]
      exact decide_eq_true (List.cons_ne_nil _ _)
  | stops =>
      obtain ⟨r, -, hr⟩ := List.mem_map.mp h
      cases hr
  | _ => simp at h

/-- A publish that goes on calls `peer.pub`, whatever has become of the mesh. -/
theorem exists_pub_pubSettles {i : Nat} {res : Except JsString Unit} (h : p.goesOn (.pubSettles i res) = true) :
    ∃ region entry signed, Out.pub region entry signed ∈ (p.pubSettles cfg i res).2 := by
  rw [goesOn_pubSettles, Option.any_eq_true] at h
  obtain ⟨w, hw, hrest⟩ := h
  unfold pubSettles
  rw [hw]
  dsimp only
  cases hregions : w.rest with
  | nil => exact absurd hregions (of_decide_eq_true hrest)
  | cons region rest => exact ⟨region, w.entry, p.author, List.mem_cons_of_mem _ List.mem_cons_self⟩

/-! ### The start-up sequence -/

/-- The number of publishes the start-up sequence waits for. -/
def awaited : Nat := (p.publishing.map Publishing.starts).count true

/-- The start-up sequence waits for the publish it has called and for no other, and it is through once the
subscriptions can be stopped. -/
structure Orderly (p : Publisher) : Prop where
  awaited : p.awaited = if p.startup = .publishing then 1 else 0
  sub : ∀ rs, p.sub = some rs → p.startup = .finished

theorem count_eraseIdx {l : List Bool} {i : Nat} {b : Bool} (h : l[i]? = some b) :
    (l.eraseIdx i).count true + b.toNat = l.count true := by
  obtain ⟨hi, rfl⟩ := List.getElem?_eq_some_iff.mp h
  have hperm : l.Perm (l[i] :: l.eraseIdx i) :=
    (List.perm_cons_erase (List.getElem_mem hi)).trans ((List.erase_getElem hi).cons l[i])
  rw [hperm.count_eq, List.count_cons]
  cases l[i] <;> rfl

theorem map_starts_set {l : List Publishing} {i : Nat} {w w' : Publishing} (hw : l[i]? = some w)
    (hstarts : w'.starts = w.starts) : (l.set i w').map Publishing.starts = l.map Publishing.starts := by
  obtain ⟨hi, rfl⟩ := List.getElem?_eq_some_iff.mp hw
  rw [List.map_set, hstarts, ← List.getElem_map Publishing.starts (h := by rwa [List.length_map])]
  exact List.set_getElem_self _

/-- A publish the start-up sequence waits for finds it waiting. -/
theorem Orderly.publishing_of_starts (hp : p.Orderly) {i : Nat} {w : Publishing}
    (hw : p.publishing[i]? = some w) (hstarts : w.starts = true) : p.startup = .publishing := by
  by_contra hnot
  have hnone : p.awaited = 0 := by rw [hp.awaited, if_neg hnot]
  have hmem : true ∈ p.publishing.map Publishing.starts :=
    List.mem_map.mpr ⟨w, List.mem_of_getElem? hw, hstarts⟩
  exact (List.count_pos_iff.mpr hmem).ne' hnone

/-- The start-up sequence goes on while no publish keeps it waiting. -/
theorem Orderly.goes (hp : p.Orderly) {author : Bool} {startup : Startup} {sub : Option (List Region)}
    (hbefore : p.startup ≠ .publishing) (hafter : startup ≠ .publishing)
    (hsub : ∀ rs, sub = some rs → startup = .finished) :
    ({ p with author, startup, sub } : Publisher).Orderly := by
  refine ⟨?_, hsub⟩
  have hnone : p.awaited = 0 := by rw [hp.awaited, if_neg hbefore]
  rw [if_neg hafter]
  exact hnone

theorem orderly_publishes (hp : p.Orderly) {w : Publishing} (hstarts : w.starts = true → p.startup = .established) :
    ({ p with
      startup := if w.starts then .publishing else p.startup
      publishing := p.publishing ++ [w] } : Publisher).Orderly := by
  constructor
  · change List.count true (List.map Publishing.starts (p.publishing ++ [w])) = _
    rw [List.map_append, List.count_append, ← awaited, hp.awaited]
    cases hw : w.starts with
    | false => simp [hw]
    | true => simp [hw, hstarts hw]
  · intro rs hrs
    have hfinished := hp.sub rs hrs
    cases hw : w.starts with
    | false => exact hfinished
    | true => cases (hstarts hw).symm.trans hfinished

theorem orderly_returns (hp : p.Orderly) {i : Nat} {w : Publishing} (hw : p.publishing[i]? = some w) :
    (({ p with publishing := p.publishing.eraseIdx i } : Publisher).afterPublish w.starts).Orderly := by
  have hcount := count_eraseIdx (by rw [List.getElem?_map, hw]; rfl :
    (p.publishing.map Publishing.starts)[i]? = some w.starts)
  rw [← awaited, hp.awaited, List.eraseIdx_map] at hcount
  cases hstarts : w.starts with
  | false =>
      rw [hstarts] at hcount
      exact ⟨hcount, hp.sub⟩
  | true =>
      have hstartup := hp.publishing_of_starts hw hstarts
      rw [hstarts, hstartup, if_pos rfl] at hcount
      refine ⟨Nat.succ_injective hcount, fun rs hrs => ?_⟩
      cases hstartup.symm.trans (hp.sub rs hrs)

/-- Only the start-up sequence waits for a publish, when it is established. -/
theorem established_of_starts {e : Event} {reason : JsString} (he : e.publish = some (reason, true))
    (henabled : p.Enabled e) : p.startup = .established := by
  cases e with
  | resume => exact henabled
  | _ => simp [Event.publish] at he

/-- **Every event keeps the start-up sequence in order.** -/
theorem orderly_act {e : Event} (hp : p.Orderly) (he : p.Enabled e) : (p.act cfg io e).1.Orderly := by
  have hmoves := moves cfg io p e
  generalize (p.act cfg io e).1 = p' at hmoves ⊢
  generalize (p.act cfg io e).2 = out at hmoves
  have hgoes : ∀ {author startup startup' sub}, p.startup = startup → startup ≠ .publishing →
      startup' ≠ .publishing → (∀ rs, sub = some rs → startup' = .finished) →
      ({ p with author, startup := startup', sub } : Publisher).Orderly :=
    fun hstartup hbefore hafter hsub => hp.goes (hstartup ▸ hbefore) hafter hsub
  have hclosed : ∀ {startup startup'}, p.startup = startup → startup ≠ .finished → ∀ rs, p.sub = some rs →
      startup' = Startup.finished :=
    fun hstartup hne rs hrs => absurd (hstartup.symm.trans (hp.sub rs hrs)) hne
  cases hmoves with
  | authorFails => exact hgoes he (by decide) (by decide) fun _ _ => rfl
  | polls he' hstartup hrows =>
      have hbefore : p.startup = .author ∨ p.startup = .polling := by
        rcases he' with rfl | rfl
        · exact Or.inl he
        · exact Or.inr he
      have hafter : ∀ {startup : Startup}, startup = .finished ∨ p.stopped = false ∧
          (startup = .polling ∨ startup = .established) → startup ≠ .publishing := by
        rintro startup (rfl | ⟨-, rfl | rfl⟩) <;> decide
      rcases hbefore with hbefore | hbefore
      · exact hgoes hbefore (by decide) (hafter hstartup) (hclosed hbefore (by decide))
      · exact hgoes hbefore (by decide) (hafter hstartup) (hclosed hbefore (by decide))
  | @publishes _ reason starts region rest entry he' hpublishes =>
      refine orderly_publishes hp (w := ⟨reason, region, rest, entry, starts⟩) fun hstarts => ?_
      cases (hstarts : starts = true)
      exact established_of_starts he' he
  | @throws _ _ starts he' hthrows =>
      cases starts with
      | false => exact hp
      | true => exact hgoes (established_of_starts he' he) (by decide) (by decide) fun _ _ => rfl
  | @defers _ _ starts _ _ he' hnot hthrows =>
      cases starts with
      | false => exact hp
      | true =>
          have hbefore := established_of_starts he' he
          exact hgoes hbefore (by decide) (by decide) (hclosed hbefore (by decide))
  | @goesOn i _ w region rest _ _ hw hrest =>
      have hsame : (p.publishing.set i { w with region, rest }).map Publishing.starts =
        p.publishing.map Publishing.starts := map_starts_set hw rfl
      exact ⟨(congrArg (List.count true) hsame).trans hp.awaited, hp.sub⟩
  | returns hw hrest => exact orderly_returns hp hw
  | nobodyWaits hnone => exact hp
  | declares => exact hgoes he (by decide) (by decide) (hclosed he (by decide))
  | subscribes hbook hregions =>
      exact hgoes he (by decide) Startup.noConfusion (hclosed he (by decide))
  | subscribesNowhere hbook hregions => exact hgoes he (by decide) (by decide) fun _ _ => rfl
  | noBook hbook => exact hgoes he (by decide) (by decide) fun _ _ => rfl
  | opens hstartup =>
      exact hgoes hstartup Startup.noConfusion Startup.noConfusion (hclosed hstartup Startup.noConfusion)
  | opensLast hstartup => exact hgoes hstartup Startup.noConfusion (by decide) fun _ _ => rfl
  | opensNothing hstartup => exact hp
  | rejected =>
      obtain ⟨subs, region, rest, hstartup⟩ := he
      exact hgoes hstartup Startup.noConfusion (by decide) fun _ _ => rfl
  | stops => exact ⟨hp.awaited, hp.sub⟩

/-- A publish starts to wait only through the gate. -/
theorem publishing_act {e : Event} (h : (p.act cfg io e).1.publishing ≠ []) :
    p.publishing ≠ [] ∨ (cfg.establishment io).ok = true := by
  have hmoves := moves cfg io p e
  generalize (p.act cfg io e).1 = p' at h hmoves
  generalize (p.act cfg io e).2 = out at hmoves
  have hwaits : ∀ {i : Nat} {w : Publishing}, p.publishing[i]? = some w → p.publishing ≠ [] := by
    intro i w hw hnil
    rw [hnil] at hw
    cases hw
  cases hmoves with
  | publishes he hpublishes => exact Or.inr hpublishes.1
  | throws he hthrows => exact Or.inr hthrows.1
  | defers => exact Or.inl (publishing_afterPublish ▸ h)
  | goesOn hw => exact Or.inl (hwaits hw)
  | returns hw => exact Or.inl (hwaits hw)
  | _ => exact Or.inl h

end Publisher

theorem pubsEstablished_iff {e : Io × Event} : PubsEstablished cfg p e ↔ StaysEstablished cfg p e := by
  constructor
  · intro h hgoes
    obtain ⟨io, e⟩ := e
    cases e with
    | pubSettles i res =>
        obtain ⟨region, entry, signed, hmem⟩ := Publisher.exists_pub_pubSettles hgoes
        exact Config.establishment_ok_iff.mpr (h region entry signed hmem)
    | _ => exact absurd hgoes Bool.false_ne_true
  · intro h region entry signed hmem
    rcases Publisher.established_or_goesOn hmem with hok | hgoes
    · exact Config.establishment_ok_iff.mp hok
    · exact Config.establishment_ok_iff.mp (h hgoes)

/-- While the clock does not go back, a publish that waits has its uptime for good. -/
theorem along_meshStays_iff {es : List (Io × Event)} (hclock : System.Forward time es)
    (hp : ∀ e ∈ es, p.publishing ≠ [] → atLeast (time e - cfg.bootAt) cfg.minUptimeMs = true) :
    (system cfg).Along (StaysEstablished cfg) p es ↔ (system cfg).Along (MeshStays cfg) p es := by
  induction es generalizing p with
  | nil => simp
  | cons e es ih =>
      obtain ⟨hfirst, hrest⟩ := List.pairwise_cons.mp hclock
      have hwaits : p.goesOn e.2 = true → p.publishing ≠ [] := by
        intro hgoes hnil
        unfold Publisher.goesOn at hgoes
        rw [hnil] at hgoes
        split at hgoes
        · exact Bool.false_ne_true hgoes
        · exact Bool.false_ne_true hgoes
      have hnow : StaysEstablished cfg p e ↔ MeshStays cfg p e := by
        refine forall_congr' fun hgoes => ?_
        rw [Config.establishment_ok_iff]
        exact and_iff_right (hp e List.mem_cons_self (hwaits hgoes))
      rw [System.along_cons, System.along_cons, hnow]
      refine and_congr_right fun _ => ih hrest fun f hf hwaiting => ?_
      rcases Publisher.publishing_act hwaiting with hbefore | hok
      · exact hp f (List.mem_cons_of_mem _ hf) hbefore
      · have hle : time e - cfg.bootAt ≤ time f - cfg.bootAt := Int.sub_le_sub_right (hfirst f hf) _
        exact atLeast_mono hle (Config.establishment_ok_iff.mp hok).1

/-- **The establishment gate.** Along a run of the publisher from its start every `peer.pub` is called
by an established bridge exactly when the bridge is established whenever a publish goes on to another
region; and, where the clock does not go back, when the mesh has its least size then. -/
theorem pubsEstablished_along_iff (cfg : Config) (es : List (Io × Event)) :
    ((system cfg).Along (PubsEstablished cfg) (system cfg).init es ↔
      (system cfg).Along (StaysEstablished cfg) (system cfg).init es) ∧
    (System.Forward time es →
      ((system cfg).Along (StaysEstablished cfg) (system cfg).init es ↔
        (system cfg).Along (MeshStays cfg) (system cfg).init es)) := by
  constructor
  · constructor
    · exact System.Along.mono fun p e h => pubsEstablished_iff.mp h
    · exact System.Along.mono fun p e h => pubsEstablished_iff.mpr h
  · exact fun hclock => along_meshStays_iff hclock fun e _ h => absurd rfl h

/-- A bridge in a region of its own. -/
def ownRegion : Config where
  publicUrl := some (js "wss://b")
  resolveRegion r := if r = js "eagle" then some 137 else if r = js "uk" then some 100 else none
  regionNameForLatLng _ := some (js "uk")
  buildBridgeEntry _ fields := .ok (.obj [(js "url", .str fields.url)])

/-- The publisher gets through the gate, and its first `peer.pub` resolves in a mesh of some size. -/
def publishesInto (peers : Nat) : List (Io × Event) :=
  [({ now := 0 }, .authorReady true), ({ now := 300000, peers := some 3 }, .tick),
    ({ now := 300000, peers := some 3 }, .resume),
    ({ now := 301000, peers := some peers }, .pubSettles 0 (.ok ()))]

theorem valid_publishesInto (peers : Nat) :
    (system ownRegion).Valid (system ownRegion).init (publishesInto peers) := by
  have henabled : ownRegion.isEnabled = true := by decide +kernel
  refine ⟨⟨henabled, rfl⟩, ⟨henabled, ?_⟩, ⟨henabled, ?_⟩, ⟨henabled, ?_⟩, trivial⟩
  · rfl
  · rfl
  · change _ < List.length _
    decide +kernel

theorem pubsEstablished_publishesInto :
    (system ownRegion).Along (PubsEstablished ownRegion) (system ownRegion).init (publishesInto 3) := by
  obtain ⟨hiff, hforward⟩ := pubsEstablished_along_iff ownRegion (publishesInto 3)
  refine hiff.mpr ((hforward ?_).mpr ?_)
  · unfold System.Forward
    decide +kernel
  · unfold MeshStays
    decide +kernel

/-- The mesh empties while the entry is published in the first region, and the entry is published in
the second. -/
theorem not_pubsEstablished_publishesInto :
    (system ownRegion).Valid (system ownRegion).init (publishesInto 0) ∧
      ¬(system ownRegion).Along (PubsEstablished ownRegion) (system ownRegion).init
        (publishesInto 0) := by
  refine ⟨valid_publishesInto 0, fun h => ?_⟩
  have hstays := h.mono fun p e h => pubsEstablished_iff.mp h
  revert hstays
  unfold StaysEstablished
  decide +kernel

end Directory

end AxonaBridge
