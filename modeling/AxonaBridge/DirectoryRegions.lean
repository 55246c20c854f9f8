import AxonaBridge.DirectoryPublisher

/-!
# The regions of the directory

The regions a round visits are those of the bridge and of the bridges it knows, one of each code and none of
the system region. A publish goes through all of them, whatever each `peer.pub` answers; the subscriptions
end at the first `peer.sub` that is rejected.
-/

open JsText

namespace AxonaBridge

namespace Directory

/-- The system region. -/
def systemRegion : Region := js "bridge"

namespace Config

variable (cfg : Config)

/-- The region of a bridge. An empty name is none. -/
def regionOf (place : Place) : Option Region := (cfg.regionNameForLatLng place).filter (· ≠ [])

/-- What the regions of a round are like, of a bridge with a book. -/
structure Canonical (book : List Place) (regions : List Region) : Prop where
  /-- No two resolve to the same code. -/
  apart : regions.Pairwise fun r r' => ∀ code, cfg.resolveRegion r = some code →
    cfg.resolveRegion r' ≠ some code
  home : homeRegion ∈ regions ∨ ∃ code, cfg.resolveRegion homeRegion = some code ∧
    cfg.resolveRegion systemRegion = some code
  /-- The region of every bridge that resolves is there under its code. -/
  represented : ∀ place ∈ cfg.place :: book, ∀ r, cfg.regionOf place = some r →
    ∀ code, cfg.resolveRegion r = some code → cfg.resolveRegion systemRegion ≠ some code →
      ∃ r' ∈ regions, cfg.resolveRegion r' = some code
  /-- None is the system region. -/
  system : ∀ r ∈ regions, r ≠ systemRegion ∧
    ∀ code, cfg.resolveRegion systemRegion = some code → cfg.resolveRegion r ≠ some code

/-! ### Keys -/

variable {cfg} {m : JsMap RegionKey Region} {o : Option Region} {os : List (Option Region)} {r r' : Region}
  {e : RegionKey × Region} {book : List Place} {code : Int}

theorem regionKey_eq_code_iff : cfg.regionKey r = .code code ↔ cfg.resolveRegion r = some code := by
  unfold regionKey
  cases cfg.resolveRegion r with
  | none => exact iff_of_false (fun h => by cases h) fun h => by cases h
  | some code' =>
      constructor
      · intro h
        cases h
        rfl
      · intro h
        cases h
        rfl

/-- Regions under different keys have no code in common. -/
theorem resolveRegion_ne (h : cfg.regionKey r ≠ cfg.regionKey r') (hcode : cfg.resolveRegion r = some code) :
    cfg.resolveRegion r' ≠ some code := fun hcode' =>
  h ((regionKey_eq_code_iff.mpr hcode).trans (regionKey_eq_code_iff.mpr hcode').symm)

/-- Two names of one key are of one code or the same. -/
theorem exists_code_of_regionKey_eq (h : cfg.regionKey r = cfg.regionKey r') (hne : r ≠ r') :
    ∃ code, cfg.resolveRegion r = some code ∧ cfg.resolveRegion r' = some code := by
  cases hcode : cfg.resolveRegion r with
  | some code => exact ⟨code, rfl, regionKey_eq_code_iff.mp (h ▸ regionKey_eq_code_iff.mpr hcode)⟩
  | none =>
      unfold regionKey at h
      rw [hcode] at h
      cases hcode' : cfg.resolveRegion r' with
      | some code =>
          rw [hcode'] at h
          cases h
      | none =>
          rw [hcode'] at h
          cases h
          exact absurd rfl hne

/-! ### Adding regions -/

/-- A region is added at the end, unless there is one under its key. -/
theorem addRegion_cases (m : JsMap RegionKey Region) (o : Option Region) :
    (cfg.addRegion m o = m ∧ ∀ r, o = some r → r ≠ [] → m.has (cfg.regionKey r) = true) ∨
      ∃ r, o = some r ∧ r ≠ [] ∧
        (cfg.addRegion m o).entries = m.entries ++ [(cfg.regionKey r, r)] := by
  unfold addRegion
  cases o with
  | none => exact Or.inl ⟨rfl, fun r h => by cases h⟩
  | some r =>
      dsimp only
      by_cases hempty : r = []
      · rw [if_pos (Or.inl hempty)]
        refine Or.inl ⟨rfl, fun r' h hne => ?_⟩
        cases h
        exact absurd hempty hne
      · by_cases hhas : m.has (cfg.regionKey r) = true
        · rw [if_pos (Or.inr hhas)]
          refine Or.inl ⟨rfl, fun r' h _ => ?_⟩
          cases h
          exact hhas
        · rw [if_neg (not_or.mpr ⟨hempty, hhas⟩)]
          refine Or.inr ⟨r, rfl, hempty, ?_⟩
          exact JsMap.entries_set_of_not_mem (fun hmem => hhas (JsMap.has_eq_true_iff.mpr hmem)) r

/-- What is under a key stays there. -/
theorem entries_foldl_addRegion (m : JsMap RegionKey Region) (os : List (Option Region)) :
    ∃ es, (os.foldl cfg.addRegion m).entries = m.entries ++ es := by
  induction os generalizing m with
  | nil => exact ⟨[], (List.append_nil _).symm⟩
  | cons o os ih =>
      obtain ⟨es, hes⟩ := ih (cfg.addRegion m o)
      rw [List.foldl_cons, hes]
      rcases addRegion_cases m o with ⟨hsame, -⟩ | ⟨r, -, -, hadded⟩
      · rw [hsame]
        exact ⟨es, rfl⟩
      · rw [hadded, List.append_assoc]
        exact ⟨_, rfl⟩

/-- Every entry was there or is one of the regions added, under its own key. -/
theorem mem_foldl_addRegion (h : e ∈ (os.foldl cfg.addRegion m).entries) :
    e ∈ m.entries ∨ (e.1 = cfg.regionKey e.2 ∧ e.2 ≠ [] ∧ some e.2 ∈ os) := by
  induction os generalizing m with
  | nil => exact Or.inl h
  | cons o os ih =>
      rcases ih h with hbefore | ⟨hkey, hne, hmem⟩
      · rcases addRegion_cases m o with ⟨hsame, -⟩ | ⟨r, rfl, hne, hadded⟩
        · exact Or.inl (hsame ▸ hbefore)
        · rw [hadded] at hbefore
          rcases List.mem_append.mp hbefore with hold | hnew
          · exact Or.inl hold
          · cases List.mem_singleton.mp hnew
            exact Or.inr ⟨rfl, hne, List.mem_cons_self⟩
      · exact Or.inr ⟨hkey, hne, List.mem_cons_of_mem _ hmem⟩

/-- There is an entry under the key of every region added. -/
theorem has_foldl_addRegion (hne : r ≠ []) (h : some r ∈ os) :
    (os.foldl cfg.addRegion m).has (cfg.regionKey r) = true := by
  induction os generalizing m with
  | nil => cases h
  | cons o os ih =>
      rcases List.mem_cons.mp h with rfl | hmem
      · obtain ⟨es, hes⟩ := entries_foldl_addRegion (cfg.addRegion m (some r)) os
        have hnow : cfg.regionKey r ∈ (cfg.addRegion m (some r)).entries.map Prod.fst := by
          rcases addRegion_cases m (some r) with ⟨hsame, hhas⟩ | ⟨r', hr', -, hadded⟩
          · rw [hsame]
            exact JsMap.has_eq_true_iff.mp (hhas r rfl hne)
          · cases hr'
            rw [hadded, List.map_append]
            exact List.mem_append_right _ List.mem_cons_self
        rw [JsMap.has_eq_true_iff, List.foldl_cons]
        unfold JsMap.keys
        rw [hes, List.map_append]
        exact List.mem_append_left _ hnow
      · exact ih hmem

/-! ### The regions of a round -/

/-- The names that the regions of a round come from. -/
def names (cfg : Config) (book : List Place) : List (Option Region) :=
  some homeRegion :: (cfg.place :: book).map cfg.regionNameForLatLng

theorem bridgeRegions_eq (cfg : Config) (book : List Place) : cfg.bridgeRegions book =
    (((cfg.names book).foldl cfg.addRegion JsMap.empty).delete (cfg.regionKey systemRegion)).entries.map
      Prod.snd := by
  unfold bridgeRegions names
  rw [List.foldl_cons, List.map_cons, List.foldl_cons, List.foldl_map]
  rfl

/-- The key and the region of every entry that is left. -/
theorem mem_delete_iff : e ∈ (m.delete (cfg.regionKey systemRegion)).entries ↔
    e ∈ m.entries ∧ e.1 ≠ cfg.regionKey systemRegion := by
  unfold JsMap.delete JsMap.filter
  rw [List.mem_filter, decide_eq_true_iff]

theorem mem_bridgeRegions_iff : r ∈ cfg.bridgeRegions book ↔
    (cfg.regionKey r, r) ∈ ((cfg.names book).foldl cfg.addRegion JsMap.empty).entries ∧
      cfg.regionKey r ≠ cfg.regionKey systemRegion := by
  rw [bridgeRegions_eq, List.mem_map]
  constructor
  · rintro ⟨e, he, rfl⟩
    rw [mem_delete_iff] at he
    rcases mem_foldl_addRegion he.1 with hempty | ⟨hkey, -, -⟩
    · cases hempty
    · rwa [← hkey]
  · exact fun h => ⟨_, mem_delete_iff.mpr h, rfl⟩

/-- A region of a round is the home region or that of a bridge. -/
theorem source_of_mem (h : r ∈ cfg.bridgeRegions book) :
    r = homeRegion ∨ ∃ place ∈ cfg.place :: book, cfg.regionOf place = some r := by
  rcases mem_foldl_addRegion (mem_bridgeRegions_iff.mp h).1 with hempty | ⟨-, hne, hmem⟩
  · cases hempty
  · rcases List.mem_cons.mp hmem with hhome | hplace
    · exact Or.inl (Option.some.inj hhome)
    · obtain ⟨place, hmem, hname⟩ := List.mem_map.mp hplace
      refine Or.inr ⟨place, hmem, ?_⟩
      unfold regionOf
      rw [hname, Option.filter_some, if_pos (by simpa using hne)]

/-- The home region comes first, unless it is the system region. -/
theorem bridgeRegions_home (book : List Place) (h : cfg.regionKey homeRegion ≠ cfg.regionKey systemRegion) :
    ∃ rest, cfg.bridgeRegions book = homeRegion :: rest := by
  obtain ⟨es, hes⟩ := @entries_foldl_addRegion cfg (cfg.addRegion JsMap.empty (some homeRegion))
    ((cfg.place :: book).map cfg.regionNameForLatLng)
  have hfirst : (cfg.addRegion JsMap.empty (some homeRegion)).entries = [(cfg.regionKey homeRegion, homeRegion)] :=
    rfl
  rw [bridgeRegions_eq, names, List.foldl_cons]
  unfold JsMap.delete JsMap.filter
  dsimp only
  rw [hes, hfirst, List.singleton_append, List.filter_cons, if_pos (decide_eq_true h)]
  exact ⟨_, rfl⟩

theorem pairwise_bridgeRegions (cfg : Config) (book : List Place) :
    (cfg.bridgeRegions book).Pairwise fun r r' => cfg.regionKey r ≠ cfg.regionKey r' := by
  rw [bridgeRegions_eq, List.pairwise_map]
  have hnodup := ((cfg.names book).foldl cfg.addRegion JsMap.empty).delete (cfg.regionKey systemRegion) |>.nodup
  refine (List.pairwise_map.mp hnodup).imp_of_mem fun {e e'} he he' hne => ?_
  have hkey : ∀ e ∈ (((cfg.names book).foldl cfg.addRegion JsMap.empty).delete
      (cfg.regionKey systemRegion)).entries, e.1 = cfg.regionKey e.2 := by
    intro e he
    rcases mem_foldl_addRegion (mem_delete_iff.mp he).1 with hempty | ⟨hkey, -, -⟩
    · cases hempty
    · exact hkey
  rwa [hkey e he, hkey e' he'] at hne

/-- **The regions of a round.** -/
theorem canonical_bridgeRegions (cfg : Config) (book : List Place) :
    cfg.Canonical book (cfg.bridgeRegions book) where
  apart := (pairwise_bridgeRegions cfg book).imp fun hne _ => resolveRegion_ne hne
  home := by
    by_cases hkey : cfg.regionKey homeRegion = cfg.regionKey systemRegion
    · exact Or.inr (exists_code_of_regionKey_eq hkey (by decide))
    · obtain ⟨rest, hrest⟩ := bridgeRegions_home book hkey
      rw [hrest]
      exact Or.inl List.mem_cons_self
  represented := by
    intro place hplace r hregion code hcode hsystem
    obtain ⟨hname, hne⟩ := Option.filter_eq_some_iff.mp hregion
    have hmem : some r ∈ cfg.names book :=
      List.mem_cons_of_mem _ (List.mem_map.mpr ⟨place, hplace, hname⟩)
    have hhas : ((cfg.names book).foldl cfg.addRegion JsMap.empty).has (cfg.regionKey r) = true :=
      has_foldl_addRegion (by simpa using hne) hmem
    obtain ⟨r', hr'⟩ := JsMap.mem_keys_iff.mp (JsMap.has_eq_true_iff.mp hhas)
    have hentry := JsMap.mem_entries_iff.mpr hr'
    rcases mem_foldl_addRegion hentry with hempty | ⟨hkey, -, -⟩
    · cases hempty
    · dsimp only at hkey
      have hcode' : cfg.resolveRegion r' = some code :=
        regionKey_eq_code_iff.mp (hkey ▸ regionKey_eq_code_iff.mpr hcode)
      refine ⟨r', mem_bridgeRegions_iff.mpr ⟨hkey ▸ hentry, fun heq => ?_⟩, hcode'⟩
      exact hsystem (regionKey_eq_code_iff.mp (heq ▸ regionKey_eq_code_iff.mpr hcode'))
  system := by
    intro r hr
    have hne := (mem_bridgeRegions_iff.mp hr).2
    refine ⟨fun heq => hne (congrArg cfg.regionKey heq), fun code hsystem hcode => ?_⟩
    exact resolveRegion_ne hne hcode hsystem

/-- The first regions of a round are canonical by themselves exactly when none of the others resolves. -/
theorem canonical_prefix_iff {visited rest : List Region} (hne : visited ≠ [])
    (h : visited ++ rest = cfg.bridgeRegions book) :
    cfg.Canonical book visited ↔ ∀ r ∈ rest, cfg.resolveRegion r = none := by
  have hall := canonical_bridgeRegions cfg book
  have hhome : cfg.regionKey homeRegion ≠ cfg.regionKey systemRegion → homeRegion ∈ visited := by
    intro hkey
    obtain ⟨rest', hfirst⟩ := bridgeRegions_home book hkey
    cases visited with
    | nil => exact absurd rfl hne
    | cons r visited =>
        have hhead := (List.cons.inj (h.trans hfirst)).1
        rw [hhead]
        exact List.mem_cons_self
  rw [← h] at hall
  constructor
  · intro hcanonical r hr
    by_contra hnone
    obtain ⟨code, hcode⟩ := Option.ne_none_iff_exists'.mp hnone
    have hapart := (List.pairwise_append.mp hall.apart).2.2
    have hmem : r ∈ cfg.bridgeRegions book := h ▸ List.mem_append_right visited hr
    rcases source_of_mem hmem with rfl | ⟨place, hplace, hregion⟩
    · exact hapart _ (hhome (mem_bridgeRegions_iff.mp hmem).2) _ hr code hcode hcode
    · have hsystem : cfg.resolveRegion systemRegion ≠ some code := fun hsystem =>
        (hall.system r (List.mem_append_right _ hr)).2 code hsystem hcode
      obtain ⟨r', hr', hcode'⟩ := hcanonical.represented place hplace r hregion code hcode hsystem
      exact hapart r' hr' r hr code hcode' hcode
  · intro hrest
    refine ⟨(List.pairwise_append.mp hall.apart).1, ?_, ?_, fun r hr => hall.system r (List.mem_append_left _ hr)⟩
    · by_cases hkey : cfg.regionKey homeRegion = cfg.regionKey systemRegion
      · exact Or.inr (exists_code_of_regionKey_eq hkey (by decide))
      · exact Or.inl (hhome hkey)
    · intro place hplace r hregion code hcode hsystem
      obtain ⟨r', hr', hcode'⟩ := hall.represented place hplace r hregion code hcode hsystem
      rcases List.mem_append.mp hr' with hmem | hmem
      · exact ⟨r', hmem, hcode'⟩
      · rw [hrest r' hmem] at hcode'
        cases hcode'

end Config

/-! ### The rounds of a run -/

/-- The regions a publish or the subscriptions have gone through, with the book they found. -/
structure Round where
  book : List Place
  visited : List Region

def Round.visit (w : Round) (region : Region) : Round := { w with visited := w.visited ++ [region] }

def Out.pubRegion : Out → Option Region
  | .pub region _ _ => some region
  | _ => none

def Out.subRegion : Out → Option Region
  | .sub region => some region
  | _ => none

/-- The publisher with its rounds. -/
structure Tour where
  publisher : Publisher := {}
  /-- A round for each publish that waits. -/
  publishing : List Round := []
  /-- The rounds of the publishes that have gone through their regions. -/
  published : List Round := []
  subscribing : Option Round := none

/-- The regions still to come for the subscriptions, while they are under way. -/
def Publisher.ahead (p : Publisher) : Option (List Region) :=
  match p.startup with
  | .subscribing _ _ rest => some rest
  | _ => none

namespace Tour

/-- The rounds after an event that leaves a publisher and does some things. -/
def record (cfg : Config) (t : Tour) (book : List Place) (e : Event) (p : Publisher) (out : List Out) : Tour where
  publisher := p
  publishing :=
    match e, out.findSome? Out.pubRegion with
    | .pubSettles i _, some region => t.publishing.modify i (·.visit region)
    | .pubSettles i _, none => t.publishing.eraseIdx i
    | _, some region => t.publishing ++ [{ book, visited := [region] }]
    | _, none => t.publishing
  published :=
    match e, out.findSome? Out.pubRegion with
    | .pubSettles i _, none => t.published ++ (t.publishing[i]?).toList
    | _, _ => t.published
  subscribing :=
    match e, out.findSome? Out.subRegion with
    | .classSettles _, region =>
        if cfg.hasBook then some { book, visited := region.toList } else t.subscribing
    | _, some region => t.subscribing.map (·.visit region)
    | _, none => t.subscribing

def step (cfg : Config) (t : Tour) (e : Io × Event) : Tour :=
  t.record cfg e.1.book e.2 (t.publisher.act cfg e.1 e.2).1 (t.publisher.act cfg e.1 e.2).2

/-- Every round visits canonical regions: those that are through by the regions they have visited, the
others together with those to come. -/
structure VisitsCanonical (cfg : Config) (t : Tour) : Prop where
  published : ∀ w ∈ t.published, cfg.Canonical w.book w.visited
  publishing : List.Forall₂ (fun (q : Publishing) (w : Round) => cfg.Canonical w.book (w.visited ++ q.rest))
    t.publisher.publishing t.publishing
  subscribing : ∀ w, t.subscribing = some w → cfg.Canonical w.book (w.visited ++ t.publisher.ahead.getD [])

end Tour

/-- The publisher of an enabled directory, with its rounds. -/
def tours (cfg : Config) : System Tour (Io × Event) where
  init := {}
  enabled t e := (system cfg).enabled t.publisher e
  step := Tour.step cfg

/-- A `peer.sub` is rejected only when no region to come resolves. -/
def RejectsLast (cfg : Config) (t : Tour) (e : Io × Event) : Prop :=
  ∀ err, e.2 = .subSettles (.error err) → ∀ r ∈ t.publisher.ahead.getD [], cfg.resolveRegion r = none

namespace Tour

variable {cfg : Config} {t : Tour} {e : Io × Event}

/-- The rounds follow the regions of the book they found, up to a subscription that is rejected. -/
structure Follows (cfg : Config) (t : Tour) : Prop where
  orderly : t.publisher.Orderly
  published : ∀ w ∈ t.published, w.visited = cfg.bridgeRegions w.book
  publishing : List.Forall₂ (fun (q : Publishing) (w : Round) => w.visited ++ q.rest = cfg.bridgeRegions w.book)
    t.publisher.publishing t.publishing
  subscribing : ∀ rest, t.publisher.ahead = some rest → ∃ w, t.subscribing = some w ∧ w.visited ≠ [] ∧
    w.visited ++ rest = cfg.bridgeRegions w.book
  subscribed : t.publisher.ahead = none → ∀ w, t.subscribing = some w → cfg.Canonical w.book w.visited

theorem Follows.visitsCanonical (ht : Follows cfg t) : VisitsCanonical cfg t where
  published w hw := by
    rw [ht.published w hw]
    exact Config.canonical_bridgeRegions cfg w.book
  publishing := by
    refine ht.publishing.imp fun q w h => ?_
    rw [h]
    exact Config.canonical_bridgeRegions cfg w.book
  subscribing := by
    intro w hw
    cases hahead : t.publisher.ahead with
    | none =>
        rw [Option.getD_none, List.append_nil]
        exact ht.subscribed hahead w hw
    | some rest =>
        obtain ⟨w', hw', -, h⟩ := ht.subscribing rest hahead
        cases hw.symm.trans hw'
        rw [Option.getD_some, h]
        exact Config.canonical_bridgeRegions cfg w.book

theorem follows_init (cfg : Config) : Follows cfg {} where
  orderly := ⟨rfl, fun _ h => by cases h⟩
  published _ h := by cases h
  publishing := .nil
  subscribing _ h := by cases h
  subscribed _ _ h := by cases h

/-! ### What an event does to the rounds -/

variable {book : List Place} {p : Publisher} {out : List Out} {ev : Event}

theorem ahead_eq_none (h : p.startup.isEarly = true) : p.ahead = none := by
  unfold Publisher.ahead
  split
  · rename_i hstartup
    rw [hstartup] at h
    cases h
  · rfl

/-- The rounds of the publishes change, and those of the subscriptions do not. -/
theorem Follows.publishes (ht : Follows cfg t) (hp : p.Orderly) (hahead : p.ahead = t.publisher.ahead)
    {publishing published : List Round} (hpublished : ∀ w ∈ published, w.visited = cfg.bridgeRegions w.book)
    (hpublishing : List.Forall₂ (fun (q : Publishing) (w : Round) => w.visited ++ q.rest = cfg.bridgeRegions w.book)
      p.publishing publishing) : Follows cfg { t with publisher := p, publishing, published } where
  orderly := hp
  published := hpublished
  publishing := hpublishing
  subscribing rest h := ht.subscribing rest (hahead ▸ h)
  subscribed h := ht.subscribed (hahead ▸ h)

theorem ahead_eq_some {subs : List Region} {region : Region} {rest : List Region}
    (h : p.startup = .subscribing subs region rest) : p.ahead = some rest := by
  unfold Publisher.ahead
  rw [h]

/-- An event that calls neither `peer.pub` nor `peer.sub`, and is the answer to neither, leaves the rounds. -/
theorem Follows.quiet (ht : Follows cfg t) (hp : p.Orderly) (hahead : p.ahead = t.publisher.ahead)
    (hpublishing : p.publishing = t.publisher.publishing) : Follows cfg { t with publisher := p } :=
  ht.publishes hp hahead ht.published (hpublishing ▸ ht.publishing)

theorem record_quiet (hpub : out.findSome? Out.pubRegion = none) (hsub : out.findSome? Out.subRegion = none)
    (hev : (∀ i res, ev ≠ .pubSettles i res) ∧ ∀ res, ev ≠ .classSettles res) :
    t.record cfg book ev p out = { t with publisher := p } := by
  unfold record
  rw [hpub, hsub]
  cases ev with
  | pubSettles i res => exact absurd rfl (hev.1 i res)
  | classSettles res => exact absurd rfl (hev.2 res)
  | _ => rfl

/-- An event that calls a publish answers no call of the peer. -/
theorem answers_of_publish {x : JsString × Bool} (h : ev.publish = some x) :
    (∀ i res, ev ≠ .pubSettles i res) ∧ ∀ res, ev ≠ .classSettles res := by
  cases ev <;> simp [Event.publish] at h ⊢

theorem record_publish {x : JsString × Bool} {region : Region} {entry : JsVal} {signed : Bool}
    (hev : ev.publish = some x) : t.record cfg book ev p [.pub region entry signed] =
      { t with publisher := p, publishing := t.publishing ++ [{ book, visited := [region] }] } := by
  cases ev with
  | resume => rfl
  | heartbeat => rfl
  | republish reason => rfl
  | _ => cases hev

theorem record_class {res : Except JsString Unit} (hbook : cfg.hasBook = true)
    (hpub : out.findSome? Out.pubRegion = none) : t.record cfg book (.classSettles res) p out =
      { t with
        publisher := p
        subscribing := some { book, visited := (out.findSome? Out.subRegion).toList } } := by
  unfold record
  dsimp only
  rw [hpub, if_pos hbook]

/-- A publish that begins has a round of its own. -/
theorem Follows.begins (ht : Follows cfg t) (hp : p.Orderly) (hahead : p.ahead = t.publisher.ahead)
    {q : Publishing} {region : Region} (hpublishing : p.publishing = t.publisher.publishing ++ [q])
    (hregions : cfg.bridgeRegions book = region :: q.rest) :
    Follows cfg { t with publisher := p, publishing := t.publishing ++ [{ book, visited := [region] }] } := by
  apply ht.publishes hp hahead ht.published
  rw [hpublishing]
  exact List.rel_append ht.publishing (.cons hregions.symm .nil)

/-- The round of a publish that waits. -/
theorem Follows.exists_round (ht : Follows cfg t) {i : Nat} {q : Publishing}
    (hq : t.publisher.publishing[i]? = some q) :
    ∃ w, t.publishing[i]? = some w ∧ w.visited ++ q.rest = cfg.bridgeRegions w.book := by
  obtain ⟨hi, rfl⟩ := List.getElem?_eq_some_iff.mp hq
  have hlength := ht.publishing.length_eq
  exact ⟨t.publishing[i], List.getElem?_eq_getElem _, ht.publishing.get hi (hlength ▸ hi)⟩

/-- A publish goes on to the next of its regions. -/
theorem Follows.goesOn (ht : Follows cfg t) (hp : p.Orderly) (hahead : p.ahead = t.publisher.ahead) {i : Nat}
    {q : Publishing} {region : Region} {rest : List Region} (hq : t.publisher.publishing[i]? = some q)
    (hrest : q.rest = region :: rest)
    (hpublishing : p.publishing = t.publisher.publishing.set i { q with region, rest }) :
    Follows cfg { t with publisher := p, publishing := t.publishing.modify i (·.visit region) } := by
  apply ht.publishes hp hahead ht.published
  obtain ⟨w, hw, h⟩ := ht.exists_round hq
  obtain ⟨hi, rfl⟩ := List.getElem?_eq_some_iff.mp hw
  rw [hpublishing, List.set_eq_take_append_cons_drop, if_pos (ht.publishing.length_eq ▸ hi),
    List.modify_eq_take_cons_drop hi]
  apply List.rel_append (List.forall₂_take i ht.publishing)
  refine .cons ?_ (List.forall₂_drop _ ht.publishing)
  rw [hrest] at h
  exact (List.append_assoc _ _ _).trans h

/-- A publish has gone through its regions. -/
theorem Follows.returns (ht : Follows cfg t) (hp : p.Orderly) (hahead : p.ahead = t.publisher.ahead) {i : Nat}
    {q : Publishing} (hq : t.publisher.publishing[i]? = some q) (hrest : q.rest = [])
    (hpublishing : p.publishing = t.publisher.publishing.eraseIdx i) :
    Follows cfg
      { t with
        publisher := p
        publishing := t.publishing.eraseIdx i
        published := t.published ++ (t.publishing[i]?).toList } := by
  apply ht.publishes hp hahead
  · obtain ⟨w, hw, h⟩ := ht.exists_round hq
    rw [hrest, List.append_nil] at h
    intro w' hw'
    rcases List.mem_append.mp hw' with hbefore | hnow
    · exact ht.published w' hbefore
    · rw [hw] at hnow
      cases List.mem_singleton.mp hnow
      exact h
  · rw [hpublishing, List.eraseIdx_eq_take_drop_succ, List.eraseIdx_eq_take_drop_succ]
    exact List.rel_append (List.forall₂_take i ht.publishing) (List.forall₂_drop _ ht.publishing)

/-- The subscriptions go on, or have gone through their regions, or have ended before. -/
theorem Follows.subscribes (ht : Follows cfg t) (hp : p.Orderly) {w : Round}
    (hpublishing : p.publishing = t.publisher.publishing)
    (hunder : ∀ rest, p.ahead = some rest → w.visited ≠ [] ∧ w.visited ++ rest = cfg.bridgeRegions w.book)
    (hended : p.ahead = none → cfg.Canonical w.book w.visited) :
    Follows cfg { t with publisher := p, subscribing := some w } where
  orderly := hp
  published := ht.published
  publishing := by
    change List.Forall₂ _ p.publishing t.publishing
    rw [hpublishing]
    exact ht.publishing
  subscribing rest h := ⟨w, rfl, hunder rest h⟩
  subscribed := by
    intro h w' hw'
    cases hw'
    exact hended h

/-- The subscriptions are no longer under way. -/
theorem Follows.ends (ht : Follows cfg t) (hp : p.Orderly) (hpublishing : p.publishing = t.publisher.publishing)
    (hahead : p.ahead = none) (hended : ∀ w, t.subscribing = some w → cfg.Canonical w.book w.visited) :
    Follows cfg { t with publisher := p } where
  orderly := hp
  published := ht.published
  publishing := by
    change List.Forall₂ _ p.publishing t.publishing
    rw [hpublishing]
    exact ht.publishing
  subscribing rest h := by cases hahead.symm.trans h
  subscribed _ := hended

theorem record_noBook {res : Except JsString Unit} (hbook : cfg.hasBook = false)
    (hpub : out.findSome? Out.pubRegion = none) :
    t.record cfg book (.classSettles res) p out = { t with publisher := p } := by
  unfold record
  dsimp only
  rw [hpub, if_neg (Bool.eq_false_iff.mp hbook)]

/-- **What a step does to the rounds.** -/
theorem follows_step (ht : Follows cfg t) (he : (tours cfg).enabled t e) (hrejects : RejectsLast cfg t e) :
    Follows cfg ((tours cfg).step t e) := by
  obtain ⟨io, ev⟩ := e
  have hp : (t.publisher.act cfg io ev).1.Orderly := Publisher.orderly_act ht.orderly he.2
  have hmoves := Publisher.moves cfg io t.publisher ev
  change Follows cfg (t.record cfg io.book ev (t.publisher.act cfg io ev).1 (t.publisher.act cfg io ev).2)
  generalize (t.publisher.act cfg io ev).1 = p at hp hmoves ⊢
  generalize (t.publisher.act cfg io ev).2 = out at hmoves ⊢
  have henabled : t.publisher.Enabled ev := he.2
  have hidle : ∀ {startup : Startup}, t.publisher.startup = startup → startup.isEarly = true →
      t.publisher.ahead = none := fun hstartup hearly => ahead_eq_none (hstartup ▸ hearly)
  have hstarted : ∀ {reason}, ev.publish = some (reason, true) → t.publisher.ahead = none :=
    fun hev => hidle (Publisher.established_of_starts hev henabled) rfl
  cases hmoves with
  | authorFails => exact ht.quiet hp (hidle henabled rfl).symm rfl
  | polls he' hstartup hrows =>
      have hbefore : t.publisher.ahead = none := by
        rcases he' with rfl | rfl
        · exact hidle henabled rfl
        · exact hidle henabled rfl
      have hlogs : ∀ {f : Out → Option Region}, (∀ event fields, f (.log event fields) = none) →
          out.findSome? f = none := by
        intro f hf
        rw [List.findSome?_eq_none_iff]
        intro o ho
        obtain ⟨event, fields, rfl⟩ := hrows o ho
        exact hf event fields
      rw [record_quiet (hlogs fun _ _ => rfl) (hlogs fun _ _ => rfl) (by rcases he' with rfl | rfl <;> simp)]
      refine ht.quiet hp (.trans ?_ hbefore.symm) rfl
      rcases hstartup with rfl | ⟨-, rfl | rfl⟩ <;> rfl
  | @publishes _ reason starts region rest entry he' hpublishes =>
      rw [record_publish he']
      refine ht.begins hp ?_ (q := ⟨reason, region, rest, entry, starts⟩) rfl hpublishes.2.1
      cases starts with
      | false => rfl
      | true => exact (hstarted he').symm
  | @throws _ _ starts he' hthrows =>
      rw [record_quiet rfl rfl (answers_of_publish he')]
      cases starts with
      | false => exact ht.quiet hp rfl rfl
      | true => exact ht.quiet hp (hstarted he').symm rfl
  | @defers _ _ starts _ _ he' hnot hthrows =>
      rw [record_quiet rfl rfl (answers_of_publish he')]
      cases starts with
      | false => exact ht.quiet hp rfl rfl
      | true => exact ht.quiet hp (hstarted he').symm rfl
  | goesOn hw hrest => exact ht.goesOn hp rfl hw hrest rfl
  | @returns _ _ w _ _ hw hrest =>
      refine ht.returns hp ?_ hw hrest Publisher.publishing_afterPublish
      cases hstarts : w.starts with
      | false => rfl
      | true => exact (hidle (ht.orderly.publishing_of_starts hw hstarts) rfl).symm
  | nobodyWaits hnone => exact absurd hnone (List.getElem?_eq_none_iff.not.mpr henabled.not_ge)
  | declares => exact ht.quiet hp (hidle henabled rfl).symm rfl
  | subscribes hbook hregions =>
      rw [record_class hbook rfl]
      refine ht.subscribes hp rfl (fun rest h => ?_) fun h => by cases h
      cases h
      exact ⟨List.cons_ne_nil _ _, hregions.symm⟩
  | subscribesNowhere hbook hregions =>
      rw [record_class hbook rfl]
      refine ht.subscribes hp rfl (fun rest h => by cases h) fun _ => ?_
      have hcanonical := Config.canonical_bridgeRegions cfg io.book
      rwa [hregions] at hcanonical
  | noBook hbook =>
      rw [record_noBook hbook rfl]
      exact ht.quiet hp (hidle henabled rfl).symm rfl
  | @opens subs region next rest hstartup =>
      obtain ⟨w, hw, hne, h⟩ := ht.subscribing (next :: rest) (ahead_eq_some hstartup)
      have hrecord : ∀ p, t.record cfg io.book (.subSettles (.ok ())) p [.sub next] =
          { t with publisher := p, subscribing := t.subscribing.map (·.visit next) } := fun _ => rfl
      rw [hrecord, hw]
      refine ht.subscribes hp rfl (fun rest' h' => ?_) fun h' => by cases h'
      cases h'
      exact ⟨List.append_ne_nil_of_right_ne_nil _ (List.cons_ne_nil _ _), (List.append_assoc _ _ _).trans h⟩
  | opensLast hstartup =>
      obtain ⟨w, hw, hne, h⟩ := ht.subscribing [] (ahead_eq_some hstartup)
      refine ht.ends hp rfl rfl fun w' hw' => ?_
      cases hw.symm.trans hw'
      rw [List.append_nil] at h
      rw [h]
      exact Config.canonical_bridgeRegions cfg w.book
  | opensNothing hstartup =>
      obtain ⟨subs, region, rest, hsub⟩ := henabled
      exact absurd hsub (hstartup subs region rest)
  | @rejected err =>
      obtain ⟨subs, region, rest, hstartup⟩ := henabled
      obtain ⟨w, hw, hne, h⟩ := ht.subscribing rest (ahead_eq_some hstartup)
      refine ht.ends hp rfl rfl fun w' hw' => ?_
      cases hw.symm.trans hw'
      apply (Config.canonical_prefix_iff hne h).mpr
      have hrest := hrejects err rfl
      rwa [ahead_eq_some hstartup] at hrest
  | stops =>
      have hnone : ∀ {f : Out → Option Region}, (∀ region, f (.unsub region) = none) →
          ((t.publisher.sub.getD []).map Out.unsub).findSome? f = none := by
        intro f hf
        rw [List.findSome?_eq_none_iff]
        intro o ho
        obtain ⟨region, -, rfl⟩ := List.mem_map.mp ho
        exact hf region
      rw [record_quiet (hnone fun _ => rfl) (hnone fun _ => rfl) (by simp)]
      exact ht.quiet hp rfl rfl

theorem step_rejected {io : Io} {err : JsString} : (tours cfg).step t (io, .subSettles (.error err)) =
    { t with publisher := { t.publisher with startup := .finished } } := by
  have hmoves := Publisher.moves cfg io t.publisher (.subSettles (.error err))
  change t.record cfg io.book _ (t.publisher.act cfg io _).1 (t.publisher.act cfg io _).2 = _
  generalize (t.publisher.act cfg io (.subSettles (.error err))).1 = p at hmoves ⊢
  generalize (t.publisher.act cfg io (.subSettles (.error err))).2 = out at hmoves ⊢
  cases hmoves with
  | rejected => rfl
  | polls he => rcases he with he | he <;> cases he
  | publishes he => cases he
  | throws he => cases he
  | defers he => cases he

/-- A step from rounds that follow their regions ends in canonical ones exactly when it rejects the last
subscription there is to be. -/
theorem visitsCanonical_step_iff (ht : Follows cfg t) (he : (tours cfg).enabled t e) :
    VisitsCanonical cfg ((tours cfg).step t e) ↔ RejectsLast cfg t e := by
  constructor
  · intro hcanonical err hev
    obtain ⟨io, ev⟩ := e
    cases (hev : ev = .subSettles (.error err))
    obtain ⟨subs, region, rest, hstartup⟩ := he.2
    obtain ⟨w, hw, hne, h⟩ := ht.subscribing rest (ahead_eq_some hstartup)
    rw [step_rejected] at hcanonical
    have hvisited : cfg.Canonical w.book (w.visited ++ []) := hcanonical.subscribing w hw
    rw [List.append_nil] at hvisited
    rw [ahead_eq_some hstartup, Option.getD_some]
    exact (Config.canonical_prefix_iff hne h).mp hvisited
  · exact fun hrejects => (follows_step ht he hrejects).visitsCanonical

end Tour

/-- **The regions of the directory.** Along a run of the publisher from its start every round visits canonical
regions exactly when a `peer.sub` is rejected only where no region to come resolves. -/
theorem visitsCanonical_along_iff (cfg : Config) {es : List (Io × Event)}
    (hes : (tours cfg).Valid (tours cfg).init es) :
    (tours cfg).Along (fun t e => Tour.VisitsCanonical cfg ((tours cfg).step t e)) (tours cfg).init es ↔
      (tours cfg).Along (RejectsLast cfg) (tours cfg).init es :=
  System.along_congr_of_invariant (fun _ _ ht he => Tour.visitsCanonical_step_iff ht he)
    (fun _ _ ht he hrejects => Tour.follows_step ht he hrejects) (Tour.follows_init cfg) hes

/-- The publisher subscribes in its first region, with some answer, after all went well. -/
def subscribesInto (res : Except JsString Unit) : List (Io × Event) :=
  publishesInto 3 ++ [({ now := 301000 }, .pubSettles 0 (.ok ())), ({ now := 301000 }, .declare),
    ({ now := 301000 }, .classSettles (.ok ())), ({ now := 302000 }, .subSettles res)]

theorem valid_subscribesInto (res : Except JsString Unit) :
    (tours ownRegion).Valid (tours ownRegion).init (subscribesInto res) := by
  have henabled : ownRegion.isEnabled = true := by decide +kernel
  refine ⟨⟨henabled, ?_⟩, ⟨henabled, ?_⟩, ⟨henabled, ?_⟩, ⟨henabled, ?_⟩, ⟨henabled, ?_⟩, ⟨henabled, ?_⟩,
    ⟨henabled, ?_⟩, ⟨henabled, ?_⟩, trivial⟩
  · rfl
  · rfl
  · rfl
  · change _ < List.length _
    decide +kernel
  · change _ < List.length _
    decide +kernel
  · rfl
  · rfl
  · exact ⟨[], js "eagle", [js "uk"], rfl⟩

theorem visitsCanonical_subscribesInto :
    (tours ownRegion).Along (fun t e => Tour.VisitsCanonical ownRegion ((tours ownRegion).step t e))
      (tours ownRegion).init (subscribesInto (.ok ())) := by
  refine (visitsCanonical_along_iff ownRegion (valid_subscribesInto _)).mpr ?_
  refine ⟨?_, ?_, ?_, ?_, ?_, ?_, ?_, ?_, trivial⟩ <;>
    · intro err h
      cases h

/-- The first `peer.sub` is rejected, and nothing is subscribed in the bridge's own region. -/
theorem not_visitsCanonical_subscribesInto :
    (tours ownRegion).Valid (tours ownRegion).init (subscribesInto (.error (js "timeout"))) ∧
      ¬(tours ownRegion).Along (fun t e => Tour.VisitsCanonical ownRegion ((tours ownRegion).step t e))
        (tours ownRegion).init (subscribesInto (.error (js "timeout"))) := by
  refine ⟨valid_subscribesInto _, fun h => ?_⟩
  obtain ⟨-, -, -, -, -, -, -, hlast, -⟩ := h
  have hvisited : ownRegion.Canonical [] [js "eagle"] := hlast.subscribing ⟨[], [js "eagle"]⟩ rfl
  obtain ⟨r, hr, hcode⟩ :=
    hvisited.represented {} List.mem_cons_self (js "uk") (by decide) 100 (by decide) (by decide)
  cases List.mem_singleton.mp hr
  revert hcode
  decide

end Directory

end AxonaBridge
