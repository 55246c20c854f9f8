import AxonaBridge.NodeModel
import AxonaBridge.Runs
import AxonaBridge.SlidingWindow

/-!
# Making room at the door

The bind policy with the mesh it decides about and every reading of the clock. `bindPolicy` of the node
is this policy where the clock reads the same throughout and the mesh is given by its answers. Whatever
the mesh answers, a refused bind has done nothing, and a bind let through has retired at most one
incumbent; the budget bounds the retires of any minute of a run.
-/

open JsText

namespace AxonaBridge

namespace Node

/-! ### The mesh and the clock -/

/-- The mesh at one moment, as the bind policy sees it: the channels `openNonProvisionalCount` counts,
and the incumbent `retireForNewcomer` names for a newcomer. -/
structure DoorMesh where
  channels : List JsString
  victimFor : JsString → Option JsString
  incumbent : ∀ token victim, victimFor token = some victim → victim ∈ channels ∧ victim ≠ token

/-- The readings of the clock in the course of one bind, with the moment of the retire among them. -/
structure BindClock where
  cooldown : Int
  ok : Int
  retire : Int
  spend : Int
  markIdentity : Int
  markConn : Int
  forward : [cooldown, ok, retire, spend, markIdentity, markConn].Pairwise (· ≤ ·)

/-- A clock that reads the same throughout. -/
def BindClock.still (now : Int) : BindClock where
  cooldown := now
  ok := now
  retire := now
  spend := now
  markIdentity := now
  markConn := now
  forward := by simp

/-- A bind as the composite hands it to the policy, and what is answered in its course. -/
structure DoorBind where
  nodeId : NodeId
  /-- The bind is one of the mesh transport. -/
  onMesh : Bool := true
  token : JsString
  preflight : Except JsString (Bool × JsString)
  mesh : DoorMesh
  /-- The identity on the channel the mesh names. -/
  victimId : Option NodeId := none
  clock : BindClock

namespace DoorBind

/-- `openNonProvisionalCount` -/
def openCounted (b : DoorBind) : Int := b.mesh.channels.length

/-- The answers of the mesh and the kernel, as the node's policy takes them. -/
def input (b : DoorBind) : BindInput where
  preflight := b.preflight
  openCounted := b.openCounted
  victim := b.mesh.victimFor b.token
  victimId := b.victimId

end DoorBind

/-- What one bind comes to; `retired` is the channel the real `retireForNewcomer` closed. -/
structure BindStep where
  verdict : BindVerdict
  node : Node
  retired : Option JsString := none
  out : List NodeOut := []

/-- The channels of the mesh after a bind. -/
def BindStep.channels (r : BindStep) (b : DoorBind) : List JsString :=
  match r.retired with
  | some victim => b.mesh.channels.erase victim
  | none => b.mesh.channels

def BindStep.ofRefusal (r : BindVerdict × Node × List NodeOut) : BindStep where
  verdict := r.1
  node := r.2.1
  out := r.2.2

/-- The mark of a channel whose bind has got through. -/
def BindStep.markBound (r : BindStep) (connId : ConnId) (idHex how : JsString) : BindStep :=
  if r.verdict ≠ .bound then r
  else { r with
    node := { r.node with
      doorChannelBound :=
        if connId ∈ r.node.doorChannelBound then r.node.doorChannelBound
        else r.node.doorChannelBound ++ [connId] }
    out := r.out ++ [.row (js "door-channel-bound") [(js "connId", .str connId),
      (js "peer", .str idHex), (js "how", .str how)]] }

/-! ### The policy -/

variable (cfg : NodeConfig) (n : Node) (b : DoorBind)

/-- The step that makes room at the cap. -/
def makeRoomAt (connId : ConnId) (idHex : JsString) : BindStep :=
  if 0 < cfg.cap ∧ cfg.cap < b.openCounted then
    let counts := some (b.openCounted, cfg.cap)
    let ok := n.sbBudget.ok b.clock.ok
    let n := { n with sbBudget := ok.2 }
    if !ok.1 then .ofRefusal (n.refuseBind connId idHex (js "budget") (js "budget") none counts)
    else
      match b.mesh.victimFor b.token with
      | none => .ofRefusal (n.refuseBind connId idHex (js "noVictim") (js "noVictim") none counts)
      | some victim =>
          let retired := match b.victimId with
            | some id => n.sbRetired.markIdentity (idToHex id) b.clock.markIdentity
            | none => n.sbRetired
          let retired := match cfg.ownDoorKey victim with
            | some victimConn => retired.markConn victimConn b.clock.markConn
            | none => retired
          { verdict := .bound
            node := { n with sbBudget := n.sbBudget.spend b.clock.spend, sbRetired := retired }
            retired := some victim
            out := [.row (js "door-make-room") [(js "connId", .str connId), (js "newcomer", .str idHex),
              (js "victimKey", .str victim), (js "victim", .ofString? (b.victimId.map idToHex)),
              (js "open", .int b.openCounted), (js "cap", .int cfg.cap)]] }
  else { verdict := .bound, node := n }

/-- `_bindPolicy` -/
def bindPolicyAt : BindStep :=
  if !b.onMesh then { verdict := .pass, node := n }
  else
    match cfg.ownDoorKey b.token with
    | none => { verdict := .pass, node := n }
    | some connId =>
        let idHex := idToHex b.nodeId
        let hit := n.sbRetired.hasIdentity idHex b.clock.cooldown
        let n := { n with sbRetired := hit.2 }
        if hit.1 then .ofRefusal (n.refuseBind connId idHex (js "cooldown") (js "cooldown"))
        else
          match b.preflight with
          | .error err => .ofRefusal (n.refuseBind connId idHex (js "gate") (js "gate") (some err))
          | .ok (false, why) => .ofRefusal (n.refuseBind connId idHex (js "gate") why)
          | .ok (true, how) => (n.makeRoomAt cfg b connId idHex).markBound connId idHex how

variable {cfg n b}

theorem makeRoomAt_eq {now : Int} (hclock : b.clock = .still now) (connId : ConnId) (idHex : JsString) :
    let r := n.makeRoomAt cfg b connId idHex
    (r.verdict, r.node, r.out) = n.makeRoom cfg now b.input connId idHex := by
  unfold makeRoomAt makeRoom
  rw [hclock]
  by_cases hfull : 0 < cfg.cap ∧ cfg.cap < b.openCounted
  · rw [if_pos hfull, if_pos (show 0 < cfg.cap ∧ cfg.cap < b.input.openCounted from hfull)]
    dsimp only [BindClock.still]
    by_cases hspent : (!(n.sbBudget.ok now).1) = true
    · rw [if_pos hspent, if_pos hspent]
      rfl
    · rw [if_neg hspent, if_neg hspent]
      have hvictim : b.input.victim = b.mesh.victimFor b.token := rfl
      rw [hvictim]
      cases b.mesh.victimFor b.token with
      | none => rfl
      | some victim => rfl
  · rw [if_neg hfull, if_neg (show ¬(0 < cfg.cap ∧ cfg.cap < b.input.openCounted) from hfull)]

/-- With a clock that reads the same throughout, the policy is the node's. -/
theorem bindPolicyAt_eq {now : Int} (hclock : b.clock = .still now) (hmesh : b.onMesh = true) :
    let r := n.bindPolicyAt cfg b
    (r.verdict, r.node, r.out) = n.bindPolicy cfg now b.input b.nodeId b.token := by
  unfold bindPolicyAt bindPolicy
  rw [if_neg (by simp [hmesh])]
  cases cfg.ownDoorKey b.token with
  | none => rfl
  | some connId =>
      have hcooldown : b.clock.cooldown = now := by rw [hclock]; rfl
      dsimp only
      rw [hcooldown]
      by_cases hhit : (n.sbRetired.hasIdentity (idToHex b.nodeId) now).1 = true
      · rw [if_pos hhit, if_pos hhit]
        rfl
      · rw [if_neg hhit, if_neg hhit]
        have hpre : b.input.preflight = b.preflight := rfl
        rw [hpre]
        cases b.preflight with
        | error err => rfl
        | ok pre =>
            obtain ⟨_ | _, how⟩ := pre
            · rfl
            · have hroom := @makeRoomAt_eq cfg
                { n with sbRetired := (n.sbRetired.hasIdentity (idToHex b.nodeId) now).2 } b now hclock
                connId (idToHex b.nodeId)
              dsimp only at hroom ⊢
              rw [← hroom]
              cases makeRoomAt cfg
                { n with sbRetired := (n.sbRetired.hasIdentity (idToHex b.nodeId) now).2 } b connId
                (idToHex b.nodeId) with
              | mk verdict node retired out => cases verdict <;> rfl

/-! ### One bind -/

/-- A bind that was refused has done nothing: no channel retired, nothing of the budget spent, no
cooldown marked and no channel marked bound. Entries that had expired may be gone. -/
structure NothingDone (n : Node) (r : BindStep) : Prop where
  retired : r.retired = none
  spent : r.node.sbBudget.spent = n.sbBudget.spent
  stamps : r.node.sbBudget.ts <:+ n.sbBudget.ts
  identities : ∀ key at_, r.node.sbRetired.ids.get key = some at_ → n.sbRetired.ids.get key = some at_
  conns : r.node.sbRetired.conns = n.sbRetired.conns
  bound : r.node.doorChannelBound = n.doorChannelBound

/-- A bind that got through retired an incumbent only above the cap, and took the mesh to the cap
where one was enough. -/
def RoomMade (cfg : NodeConfig) (b : DoorBind) (r : BindStep) : Prop :=
  ∀ victim, r.retired = some victim →
    victim ∈ b.mesh.channels ∧ victim ≠ b.token ∧ 0 < cfg.cap ∧ cfg.cap < b.openCounted ∧
      (b.openCounted ≤ cfg.cap + 1 → ((r.channels b).length : Int) ≤ cfg.cap)

theorem NothingDone.trans {m : Node} {r : BindStep} (h : NothingDone m r)
    (hbudget : m.sbBudget = n.sbBudget)
    (hids : ∀ key at_, m.sbRetired.ids.get key = some at_ → n.sbRetired.ids.get key = some at_)
    (hconns : m.sbRetired.conns = n.sbRetired.conns) (hbound : m.doorChannelBound = n.doorChannelBound) :
    NothingDone n r where
  retired := h.retired
  spent := hbudget ▸ h.spent
  stamps := hbudget ▸ h.stamps
  identities key at_ hget := hids key at_ (h.identities key at_ hget)
  conns := h.conns.trans hconns
  bound := h.bound.trans hbound

theorem ids_hasIdentity {r : SocketBootstrap.RecentlyRetired} {idHex key : JsString} {now at_ : Int}
    (h : (r.hasIdentity idHex now).2.ids.get key = some at_) : r.ids.get key = some at_ := by
  change (r.live r.ids idHex now).2.get key = some at_ at h
  unfold SocketBootstrap.RecentlyRetired.live at h
  split at h
  · exact h
  · split at h
    · exact h
    · dsimp only at h
      rw [JsMap.get_delete] at h
      split at h
      · cases h
      · exact h

theorem spent_ok (budget : SocketBootstrap.SlidingBudget) (now : Int) :
    (budget.ok now).2.spent = budget.spent ∧ (budget.ok now).2.ts <:+ budget.ts := by
  unfold SocketBootstrap.SlidingBudget.ok
  dsimp only
  split <;> exact ⟨rfl, List.dropWhile_suffix _⟩

/-- What the step at the cap comes to: nothing, with the bind refused, or a bind let through. -/
theorem makeRoomAt_cases (connId : ConnId) (idHex : JsString) :
    ((∃ why, (n.makeRoomAt cfg b connId idHex).verdict = .refused why) ∧
        NothingDone n (n.makeRoomAt cfg b connId idHex)) ∨
      ((n.makeRoomAt cfg b connId idHex).verdict = .bound ∧
        RoomMade cfg b (n.makeRoomAt cfg b connId idHex)) := by
  unfold makeRoomAt
  by_cases hfull : 0 < cfg.cap ∧ cfg.cap < b.openCounted
  · rw [if_pos hfull]
    obtain ⟨hspent, hstamps⟩ := spent_ok n.sbBudget b.clock.ok
    dsimp only
    by_cases hbudget : (!(n.sbBudget.ok b.clock.ok).1) = true
    · rw [if_pos hbudget]
      refine Or.inl ⟨⟨_, rfl⟩, ?_⟩
      exact ⟨rfl, hspent, hstamps, fun _ _ h => h, rfl, rfl⟩
    · rw [if_neg hbudget]
      cases hvictim : b.mesh.victimFor b.token with
      | none =>
          refine Or.inl ⟨⟨_, rfl⟩, ?_⟩
          exact ⟨rfl, hspent, hstamps, fun _ _ h => h, rfl, rfl⟩
      | some victim =>
          refine Or.inr ⟨rfl, fun victim' hretired => ?_⟩
          cases hretired
          obtain ⟨hmem, hne⟩ := b.mesh.incumbent b.token victim hvictim
          refine ⟨hmem, hne, hfull.1, hfull.2, fun hone => ?_⟩
          have herase : (b.mesh.channels.erase victim).length = b.mesh.channels.length - 1 :=
            List.length_erase_of_mem hmem
          have hpos : 0 < b.mesh.channels.length := List.length_pos_of_mem hmem
          change ((b.mesh.channels.erase victim).length : Int) ≤ cfg.cap
          unfold DoorBind.openCounted at hone
          omega
  · rw [if_neg hfull]
    exact Or.inr ⟨rfl, fun victim h => by cases h⟩

/-- **All or nothing.** -/
theorem bindPolicyAt_cases :
    ((∃ why, (n.bindPolicyAt cfg b).verdict = .refused why) ∧ NothingDone n (n.bindPolicyAt cfg b)) ∨
      ((∀ why, (n.bindPolicyAt cfg b).verdict ≠ .refused why) ∧
        RoomMade cfg b (n.bindPolicyAt cfg b)) := by
  have hpass : ∀ r : BindStep, r = { verdict := .pass, node := n } →
      (∀ why, r.verdict ≠ .refused why) ∧ RoomMade cfg b r := by
    rintro r rfl
    exact ⟨fun why h => (by cases h), fun victim h => by cases h⟩
  unfold bindPolicyAt
  by_cases hmesh : (!b.onMesh) = true
  · rw [if_pos hmesh]
    exact Or.inr (hpass _ rfl)
  · rw [if_neg hmesh]
    cases cfg.ownDoorKey b.token with
    | none => exact Or.inr (hpass _ rfl)
    | some connId =>
        have hids := fun key at_ => @ids_hasIdentity n.sbRetired (idToHex b.nodeId) key b.clock.cooldown at_
        dsimp only
        by_cases hhit : (n.sbRetired.hasIdentity (idToHex b.nodeId) b.clock.cooldown).1 = true
        · rw [if_pos hhit]
          refine Or.inl ⟨⟨_, rfl⟩, ?_⟩
          exact ⟨rfl, rfl, List.suffix_refl _, hids, rfl, rfl⟩
        · rw [if_neg hhit]
          cases b.preflight with
          | error err =>
              refine Or.inl ⟨⟨_, rfl⟩, ?_⟩
              exact ⟨rfl, rfl, List.suffix_refl _, hids, rfl, rfl⟩
          | ok pre =>
              obtain ⟨_ | _, how⟩ := pre
              · refine Or.inl ⟨⟨_, rfl⟩, ?_⟩
                exact ⟨rfl, rfl, List.suffix_refl _, hids, rfl, rfl⟩
              · rcases @makeRoomAt_cases cfg { n with sbRetired := (n.sbRetired.hasIdentity
                  (idToHex b.nodeId) b.clock.cooldown).2 } b connId (idToHex b.nodeId) with
                  ⟨⟨why, hwhy⟩, hnothing⟩ | ⟨hbound, hroom⟩
                · left
                  dsimp only
                  unfold BindStep.markBound
                  rw [if_pos (by rw [hwhy]; simp)]
                  exact ⟨⟨why, hwhy⟩, hnothing.trans rfl hids rfl rfl⟩
                · right
                  dsimp only
                  unfold BindStep.markBound
                  rw [if_neg (by rw [hbound]; simp)]
                  refine ⟨fun why h => ?_, hroom⟩
                  exact absurd (hbound.symm.trans h) (by simp)

/-! ### Runs of the door -/

/-- What the door keeps its state by: binds, signals to the reserved id, route switches, and sockets
that close. -/
inductive DoorEvent where
  | bind (b : DoorBind)
  | signal (k : Kernel) (now : Int) (connId : ConnId) (payload : Option JsVal)
  | routeToDoor (nodeId : NodeId) (token : JsString)
  | connClosed (k : Kernel) (connId : ConnId)

def doorStep (cfg : NodeConfig) (n : Node) : DoorEvent → Node
  | .bind b => (n.bindPolicyAt cfg b).node
  | .signal k now connId payload => (n.deliverDoorSignal cfg k now connId payload).2.1
  | .routeToDoor nodeId token => (n.onRouteToDoor cfg nodeId token).1
  | .connClosed k connId => n.handleConnClosed cfg k connId

def door (cfg : NodeConfig) (n : Node) : System Node DoorEvent where
  init := n
  enabled _ _ := True
  step := doorStep cfg

/-- A bind that is refused has done nothing, and one that is not has made room within bounds. -/
def MakesRoom (cfg : NodeConfig) (n : Node) : DoorEvent → Prop
  | .bind b =>
      ((∃ why, (n.bindPolicyAt cfg b).verdict = .refused why) → NothingDone n (n.bindPolicyAt cfg b)) ∧
        ((∀ why, (n.bindPolicyAt cfg b).verdict ≠ .refused why) →
          RoomMade cfg b (n.bindPolicyAt cfg b))
  | _ => True

/-- The moments at which the events of a run retire an incumbent. -/
def retireTimes (cfg : NodeConfig) : Node → List DoorEvent → List Int
  | _, [] => []
  | n, .bind b :: es =>
      ((n.bindPolicyAt cfg b).retired.map fun _ => b.clock.retire).toList ++
        retireTimes cfg (n.bindPolicyAt cfg b).node es
  | n, e :: es => retireTimes cfg (doorStep cfg n e) es

def DoorEvent.clock : DoorEvent → Option BindClock
  | .bind b => some b.clock
  | _ => none

/-- The clock does not go back from one bind to the next. -/
def ClockForward (es : List DoorEvent) : Prop :=
  (es.filterMap DoorEvent.clock).Pairwise fun c c' => c.markConn ≤ c'.cooldown

/-! ### The budget over a run -/

/-- Any half-open minute. -/
def inMinute (T t : Int) : Bool := T ≤ t ∧ t < T + 60000

/-- At `now`, after retires at `times`: the budget holds the spendings of the last minute, one for each
retire and none before it, and no minute has seen more retires than the budget allows. -/
structure Budgeted (n : Node) (perMin : Nat) (now : Int) (times : List Int) : Prop where
  rate : n.sbBudget.perMin = perMin
  window : n.sbBudget.windowMs = 60000
  held : ∃ spends, List.Forall₂ (· ≤ ·) times spends ∧
    SlidingWindow.Holds 60000 now spends n.sbBudget.ts
  bounded : ∀ T, times.countP (inMinute T) ≤ perMin

theorem Budgeted.of_eq {m : Node} {perMin : Nat} {now : Int} {times : List Int}
    (h : n.Budgeted perMin now times) (heq : m.sbBudget = n.sbBudget) : m.Budgeted perMin now times where
  rate := heq ▸ h.rate
  window := heq ▸ h.window
  held := heq ▸ h.held
  bounded := h.bounded

theorem holds_prune {budget : SocketBootstrap.SlidingBudget} {spends : List Int} {now t : Int}
    (hwindow : budget.windowMs = 60000) (htn : t ≤ now)
    (h : SlidingWindow.Holds 60000 t spends budget.ts) :
    SlidingWindow.Holds 60000 now spends (budget.prune now).ts := by
  refine (h.later htn).dropWhile _ fun x hx => ?_
  have hle : budget.windowMs ≤ now - x := of_decide_eq_true hx
  omega

/-- One more retire, at a moment at which the budget was not spent. -/
theorem countP_retire {times spends kept : List Int} {perMin : Nat} {ok retire : Int}
    (hle : List.Forall₂ (· ≤ ·) times spends) (hheld : SlidingWindow.Holds 60000 ok spends kept)
    (hroom : kept.length < perMin) (hret : ok ≤ retire)
    (hbounded : ∀ T, times.countP (inMinute T) ≤ perMin) (T : Int) :
    (times ++ [retire]).countP (inMinute T) ≤ perMin := by
  rw [List.countP_append, List.countP_singleton]
  by_cases hin : inMinute T retire = true
  · obtain ⟨-, hlt⟩ : T ≤ retire ∧ retire < T + 60000 := of_decide_eq_true hin
    have hall : times.countP (inMinute T) ≤ times.countP (fun t => T ≤ t) :=
      List.countP_mono_left fun t _ ht => decide_eq_true (of_decide_eq_true ht : T ≤ t ∧ _).1
    have hkept : times.countP (fun t => T ≤ t) ≤ kept.length :=
      (SlidingWindow.countP_le_of_forall₂ hle).trans (hheld.countP_le (by omega))
    rw [if_pos hin]
    omega
  · rw [if_neg hin]
    exact hbounded T

/-- What a bind does to the budget: nothing, or it asks, or it asks and spends for a retire. -/
def BudgetKept (n : Node) (b : DoorBind) (r : BindStep) : Prop :=
  (r.retired = none ∧
      (r.node.sbBudget = n.sbBudget ∨ r.node.sbBudget = (n.sbBudget.ok b.clock.ok).2)) ∨
    ∃ victim, r.retired = some victim ∧ (n.sbBudget.ok b.clock.ok).1 = true ∧
      r.node.sbBudget = (n.sbBudget.ok b.clock.ok).2.spend b.clock.spend

theorem budget_makeRoomAt (connId : ConnId) (idHex : JsString) :
    BudgetKept n b (n.makeRoomAt cfg b connId idHex) := by
  unfold makeRoomAt
  by_cases hfull : 0 < cfg.cap ∧ cfg.cap < b.openCounted
  · rw [if_pos hfull]
    dsimp only
    by_cases hbudget : (!(n.sbBudget.ok b.clock.ok).1) = true
    · rw [if_pos hbudget]
      exact Or.inl ⟨rfl, Or.inr rfl⟩
    · rw [if_neg hbudget]
      cases b.mesh.victimFor b.token with
      | none => exact Or.inl ⟨rfl, Or.inr rfl⟩
      | some victim => exact Or.inr ⟨victim, rfl, by simpa using hbudget, rfl⟩
  · rw [if_neg hfull]
    exact Or.inl ⟨rfl, Or.inl rfl⟩

theorem budget_bindPolicyAt : BudgetKept n b (n.bindPolicyAt cfg b) := by
  unfold bindPolicyAt
  by_cases hmesh : (!b.onMesh) = true
  · rw [if_pos hmesh]
    exact Or.inl ⟨rfl, Or.inl rfl⟩
  · rw [if_neg hmesh]
    cases cfg.ownDoorKey b.token with
    | none => exact Or.inl ⟨rfl, Or.inl rfl⟩
    | some connId =>
        dsimp only
        by_cases hhit : (n.sbRetired.hasIdentity (idToHex b.nodeId) b.clock.cooldown).1 = true
        · rw [if_pos hhit]
          exact Or.inl ⟨rfl, Or.inl rfl⟩
        · rw [if_neg hhit]
          cases b.preflight with
          | error err => exact Or.inl ⟨rfl, Or.inl rfl⟩
          | ok pre =>
              obtain ⟨_ | _, how⟩ := pre
              · exact Or.inl ⟨rfl, Or.inl rfl⟩
              · have hroom := @budget_makeRoomAt cfg { n with sbRetired := (n.sbRetired.hasIdentity
                  (idToHex b.nodeId) b.clock.cooldown).2 } b connId (idToHex b.nodeId)
                dsimp only
                unfold BindStep.markBound
                split
                · exact hroom
                · exact hroom

theorem Budgeted.bind {perMin : Nat} {now : Int} {times : List Int} (h : n.Budgeted perMin now times)
    (hnow : now ≤ b.clock.cooldown) :
    (n.bindPolicyAt cfg b).node.Budgeted perMin b.clock.markConn
      (times ++ ((n.bindPolicyAt cfg b).retired.map fun _ => b.clock.retire).toList) := by
  obtain ⟨spends, hle, hheld⟩ := h.held
  have hforward := b.clock.forward
  simp only [List.pairwise_cons, List.mem_cons, forall_eq_or_imp] at hforward
  have hok : now ≤ b.clock.ok := by omega
  have hprune := holds_prune h.window hok hheld
  have hasked : (n.sbBudget.ok b.clock.ok).2.ts = (n.sbBudget.prune b.clock.ok).ts ∧
      (n.sbBudget.ok b.clock.ok).2.perMin = n.sbBudget.perMin ∧
        (n.sbBudget.ok b.clock.ok).2.windowMs = n.sbBudget.windowMs := by
    unfold SocketBootstrap.SlidingBudget.ok
    dsimp only
    split <;> exact ⟨rfl, rfl, rfl⟩
  rcases @budget_bindPolicyAt cfg n b with ⟨hnone, heq | heq⟩ | ⟨victim, hsome, hroom, heq⟩
  · rw [hnone]
    refine ⟨heq ▸ h.rate, heq ▸ h.window, ⟨spends, ?_, ?_⟩, ?_⟩
    · exact (List.append_nil times).symm ▸ hle
    · rw [heq]
      exact hheld.later (by omega)
    · exact (List.append_nil times).symm ▸ h.bounded
  · rw [hnone]
    refine ⟨?_, ?_, ⟨spends, ?_, ?_⟩, ?_⟩
    · rw [heq, hasked.2.1, h.rate]
    · rw [heq, hasked.2.2, h.window]
    · exact (List.append_nil times).symm ▸ hle
    · rw [heq, hasked.1]
      exact hprune.later (by omega)
    · exact (List.append_nil times).symm ▸ h.bounded
  · rw [hsome]
    have hspent : (n.bindPolicyAt cfg b).node.sbBudget.ts =
        ((n.sbBudget.ok b.clock.ok).2.prune b.clock.spend).ts ++ [b.clock.spend] := by
      rw [heq]
      rfl
    have hlt : (n.sbBudget.prune b.clock.ok).ts.length < perMin := by
      unfold SocketBootstrap.SlidingBudget.ok at hroom
      dsimp only at hroom
      split at hroom
      · rename_i hlt
        exact h.rate ▸ hlt
      · cases hroom
    refine ⟨?_, ?_, ⟨spends ++ [b.clock.spend], ?_, ?_⟩, ?_⟩
    · rw [heq]
      exact hasked.2.1.trans h.rate
    · rw [heq]
      exact hasked.2.2.trans h.window
    · refine List.rel_append hle (List.Forall₂.cons ?_ List.Forall₂.nil)
      change b.clock.retire ≤ b.clock.spend
      omega
    · rw [hspent]
      have hspend : b.clock.ok ≤ b.clock.spend := by omega
      have hprune' := holds_prune (hasked.2.2.trans h.window) hspend (hasked.1.symm ▸ hprune)
      exact (hprune'.later (by omega)).push b.clock.spend
    · have hretire : b.clock.ok ≤ b.clock.retire := by omega
      exact countP_retire hle hprune hlt hretire h.bounded

/-- The other events of the door leave the budget alone. -/
theorem sbBudget_doorStep {e : DoorEvent} (he : e.clock = none) :
    (doorStep cfg n e).sbBudget = n.sbBudget := by
  cases e with
  | bind b => cases he
  | signal k now connId payload =>
      simp only [doorStep, deliverDoorSignal]
      split
      · rfl
      · split_ifs <;> rfl
  | routeToDoor nodeId token =>
      simp only [doorStep, onRouteToDoor]
      split
      · rfl
      · split <;> rfl
  | connClosed k connId =>
      simp only [doorStep, handleConnClosed, peerDied]
      split
      · split <;> rfl
      · rfl

theorem retireTimes_cons {e : DoorEvent} (he : e.clock = none) (es : List DoorEvent) :
    retireTimes cfg n (e :: es) = retireTimes cfg (doorStep cfg n e) es := by
  cases e with
  | bind b => cases he
  | _ => rfl

theorem Budgeted.run {perMin : Nat} {now : Int} {times : List Int} {es : List DoorEvent}
    (h : n.Budgeted perMin now times) (hforward : ClockForward es)
    (hnow : ∀ c ∈ es.filterMap DoorEvent.clock, now ≤ c.cooldown) (T : Int) :
    (times ++ retireTimes cfg n es).countP (inMinute T) ≤ perMin := by
  induction es generalizing n now times with
  | nil => exact (List.append_nil times).symm ▸ h.bounded T
  | cons e es ih =>
      cases hclock : e.clock with
      | none =>
          have hrest : (e :: es).filterMap DoorEvent.clock = es.filterMap DoorEvent.clock :=
            List.filterMap_cons_none hclock
          rw [retireTimes_cons hclock]
          rw [ClockForward, hrest] at hforward
          rw [hrest] at hnow
          exact ih (h.of_eq (sbBudget_doorStep hclock)) hforward hnow
      | some c =>
          have hrest : (e :: es).filterMap DoorEvent.clock = c :: es.filterMap DoorEvent.clock :=
            List.filterMap_cons_some hclock
          rw [ClockForward, hrest, List.pairwise_cons] at hforward
          rw [hrest] at hnow
          cases e with
          | bind b =>
              cases hclock
              rw [retireTimes, ← List.append_assoc]
              exact ih (h.bind (hnow _ List.mem_cons_self)) hforward.2 hforward.1
          | _ => cases hclock

/-- **Making room is bounded and atomic.** Along every run of the door a refused bind has done nothing
and a bind let through has retired at most one incumbent, above the cap; and no half-open minute sees
more retires than the budget. -/
theorem makesRoom_along (cfg : NodeConfig) (perMin : Nat) (n : Node)
    (hn : n.sbBudget = { perMin := perMin }) (es : List DoorEvent) (hforward : ClockForward es) :
    (door cfg n).Along (MakesRoom cfg) n es ∧
      ∀ T, (retireTimes cfg n es).countP (inMinute T) ≤ perMin := by
  constructor
  · refine System.Along.of_invariant (I := fun _ => True) (C := fun _ _ => True) ?_ trivial ?_
    · intro m e _ _
      refine ⟨?_, trivial⟩
      cases e with
      | bind b =>
          rcases @bindPolicyAt_cases cfg m b with ⟨⟨why, hwhy⟩, hnothing⟩ | ⟨hlet, hroom⟩
          · exact ⟨fun _ => hnothing, fun hnot => absurd hwhy (hnot why)⟩
          · exact ⟨fun hrefused => absurd hrefused.choose_spec (hlet _), fun _ => hroom⟩
      | _ => trivial
    · exact System.along_iff_split.mpr fun _ _ _ _ => trivial
  · intro T
    cases hclocks : es.filterMap DoorEvent.clock with
    | nil =>
        have hstart : n.Budgeted perMin 0 [] := by
          refine ⟨by rw [hn], by rw [hn], ⟨[], List.Forall₂.nil, ?_⟩, fun _ => Nat.zero_le _⟩
          rw [hn]
          exact SlidingWindow.holds_nil
        exact hstart.run hforward (by rw [hclocks]; simp) T
    | cons c clocks =>
        have hstart : n.Budgeted perMin c.cooldown [] := by
          refine ⟨by rw [hn], by rw [hn], ⟨[], List.Forall₂.nil, ?_⟩, fun _ => Nat.zero_le _⟩
          rw [hn]
          exact SlidingWindow.holds_nil
        refine hstart.run hforward (fun c' hc' => ?_) T
        rw [hclocks] at hc'
        rcases List.mem_cons.mp hc' with rfl | hc'
        · exact le_rfl
        · rw [ClockForward, hclocks, List.pairwise_cons] at hforward
          have hle := hforward.1 c' hc'
          have hown := c.forward
          simp only [List.pairwise_cons, List.mem_cons, forall_eq_or_imp] at hown
          omega

/-- A door with a single slot. -/
def oneSlot : NodeConfig where
  id := 0
  epoch := js "e"
  sb := some {}
  cap := 1

/-- The mesh with the channel of `c1` open and the one of `c2` newly bound. -/
def crowded : DoorMesh where
  channels := [js "de:c1", js "de:c2"]
  victimFor token := if token = js "de:c2" then some (js "de:c1") else none
  incumbent token victim h := by
    split at h
    · rename_i htoken
      cases h
      rw [htoken]
      exact ⟨by decide, by decide⟩
    · cases h

/-- Identity 7 binds on the channel of `c2`; identity 5 holds the other. -/
def secondComer : DoorBind where
  nodeId := 7
  token := js "de:c2"
  preflight := .ok (true, js "improves")
  mesh := crowded
  victimId := some 5
  clock := .still 1000

def freshDoor : Node where
  transport := {}
  sbBudget := { perMin := 4 }
  sbRetired := { cooldownMs := 60000 }

theorem makesRoom_secondComer :
    ((door oneSlot freshDoor).Along (MakesRoom oneSlot) freshDoor [.bind secondComer] ∧
      ∀ T, (retireTimes oneSlot freshDoor [.bind secondComer]).countP (inMinute T) ≤ 4) ∧
      retireTimes oneSlot freshDoor [.bind secondComer] = [1000] :=
  ⟨makesRoom_along oneSlot 4 freshDoor rfl [.bind secondComer] (List.pairwise_singleton _ _),
    by decide +kernel⟩

end Node

end AxonaBridge
