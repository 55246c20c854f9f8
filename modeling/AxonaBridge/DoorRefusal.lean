import AxonaBridge.DoorBind

/-!
# The close after a refused bind

A refusal of the bind policy captures the incarnation of the channel it refused and leaves the close to a
timer. In between channels die, new ones are negotiated under any key, and identities bind elsewhere. The
links are what the mesh and the transport answer: the incarnation of the channel under a key, the key
under an identity.
-/

open JsText

namespace AxonaBridge

namespace Node

/-- The channels of the mesh by their keys, and the keys of the identities bound on the transport. -/
structure DoorLinks where
  incFor : JsString → Option Nat
  meshIdFor : NodeId → Option JsString

/-- What the deferred callback of a refusal has captured. -/
structure DoorRefusal where
  nodeId : NodeId
  token : JsString
  connId : ConnId
  incAtRefusal : Option Nat
  deriving DecidableEq

namespace DoorLinks

/-- `disconnect` of the mesh. -/
def disconnect (l : DoorLinks) (key : JsString) : DoorLinks :=
  { l with incFor := Function.update l.incFor key none }

/-- `closeConnection` of the transport: it unbinds the identity and closes the channel of its key. -/
def closeConnection (l : DoorLinks) (nodeId : NodeId) : DoorLinks :=
  match l.meshIdFor nodeId with
  | some key =>
      { l with meshIdFor := Function.update l.meshIdFor nodeId none }.disconnect key
  | none => l

def hasPeer (l : DoorLinks) (key : JsString) : Bool := (l.incFor key).isSome

end DoorLinks

/-- An incarnation or `null` in a log row. -/
def incField : Option Nat → LogVal
  | some inc => .int inc
  | none => .null

/-- The deferred callback of a refusal. -/
def DoorRefusal.callback (r : DoorRefusal) (l : DoorLinks) : DoorLinks × List NodeOut :=
  let incNow := l.incFor r.token
  if incNow ≠ r.incAtRefusal then
    (l, [.row (js "door-bind-refused-close-skipped") [(js "connId", .str r.connId),
      (js "why", .str (js "key-replaced")), (js "incAtRefusal", incField r.incAtRefusal),
      (js "incNow", incField incNow)]])
  else if l.meshIdFor r.nodeId = some r.token then (l.closeConnection r.nodeId, [])
  else if l.hasPeer r.token then (l.disconnect r.token, [])
  else (l, [])

/-- The node, the links and the callbacks that have not run. -/
structure DoorTurns where
  node : Node
  links : DoorLinks
  pending : List DoorRefusal := []

inductive LinkEvent where
  /-- The composite hands a bind to the policy. -/
  | bind (b : DoorBind)
  | died (key : JsString)
  | negotiated (key : JsString) (inc : Nat)
  | rebound (nodeId : NodeId) (key : Option JsString)
  | callback (r : DoorRefusal)

namespace DoorTurns

variable (cfg : NodeConfig)

/-- The refusal a bind comes to, with what its callback captures. -/
def refusal (s : DoorTurns) (b : DoorBind) : Option DoorRefusal :=
  match (s.node.bindPolicyAt cfg b).verdict, cfg.ownDoorKey b.token with
  | .refused _, some connId =>
      some { nodeId := b.nodeId, token := b.token, connId, incAtRefusal := s.links.incFor b.token }
  | _, _ => none

def step (s : DoorTurns) : LinkEvent → DoorTurns
  | .bind b =>
      { node := (s.node.bindPolicyAt cfg b).node
        links := ((s.node.bindPolicyAt cfg b).retired.map s.links.disconnect).getD s.links
        pending := s.pending ++ (s.refusal cfg b).toList }
  | .died key => { s with links := s.links.disconnect key }
  | .negotiated key inc =>
      { s with links := { s.links with incFor := Function.update s.links.incFor key (some inc) } }
  | .rebound nodeId key =>
      { s with links := { s.links with meshIdFor := Function.update s.links.meshIdFor nodeId key } }
  | .callback r => { s with links := (r.callback s.links).1, pending := s.pending.erase r }

/-- A callback runs once. -/
def Enabled (s : DoorTurns) : LinkEvent → Prop
  | .callback r => r ∈ s.pending
  | _ => True

/-- The turns of the door, from any links. -/
def system (n : Node) (l : DoorLinks) : System DoorTurns LinkEvent where
  init := { node := n, links := l }
  enabled := Enabled
  step := step cfg

variable {cfg} {n : Node} {l : DoorLinks} {r : DoorRefusal} {s : DoorTurns} {e : LinkEvent}
  {es : List LinkEvent} {b : DoorBind}

/-! ### One callback -/

theorem incFor_disconnect (key other : JsString) :
    (l.disconnect key).incFor other = if other = key then none else l.incFor other :=
  Function.update_apply _ _ _ _

theorem incFor_closeConnection {nodeId : NodeId} {key : JsString} (h : l.meshIdFor nodeId = some key)
    (other : JsString) :
    (l.closeConnection nodeId).incFor other = if other = key then none else l.incFor other := by
  rw [DoorLinks.closeConnection, h]
  exact incFor_disconnect key other

/-- Where the refused incarnation is still there, its key is what the callback closes. -/
theorem incFor_callback_of_same (h : l.incFor r.token = r.incAtRefusal) (key : JsString) :
    (r.callback l).1.incFor key = if key = r.token then none else l.incFor key := by
  unfold DoorRefusal.callback
  dsimp only
  split
  · rename_i hne
    exact absurd h hne
  · split
    · rename_i hcur
      exact incFor_closeConnection hcur key
    · split
      · exact incFor_disconnect r.token key
      · rename_i hpeer
        have hnone : l.incFor r.token = none := Option.not_isSome_iff_eq_none.mp hpeer
        by_cases hkey : key = r.token
        · rw [if_pos hkey, hkey, hnone]
        · rw [if_neg hkey]

theorem callback_of_ne (h : l.incFor r.token ≠ r.incAtRefusal) : (r.callback l).1 = l := by
  unfold DoorRefusal.callback
  rw [if_pos h]

/-- It unbinds no identity but the refused one, and that one only from the refused key. -/
theorem meshIdFor_callback {nodeId : NodeId}
    (h : (r.callback l).1.meshIdFor nodeId ≠ l.meshIdFor nodeId) :
    nodeId = r.nodeId ∧ l.meshIdFor nodeId = some r.token := by
  unfold DoorRefusal.callback at h
  dsimp only at h
  split at h
  · exact absurd rfl h
  · split at h
    · rename_i hcur
      rw [DoorLinks.closeConnection, hcur] at h
      by_cases hid : nodeId = r.nodeId
      · exact ⟨hid, hid ▸ hcur⟩
      · exact absurd (Function.update_of_ne hid _ _) h
    · split at h <;> exact absurd rfl h

/-! ### Every order of events -/

/-- The refusal of a bind of the run. -/
def Refused (cfg : NodeConfig) (n : Node) (l : DoorLinks) (es : List LinkEvent) (r : DoorRefusal) : Prop :=
  ∃ fs b gs, es = fs ++ .bind b :: gs ∧
    ((system cfg n l).after (system cfg n l).init fs).refusal cfg b = some r

theorem refused_of_pending (hes : (system cfg n l).Valid (system cfg n l).init es) :
    ∀ r ∈ ((system cfg n l).after (system cfg n l).init es).pending, Refused cfg n l es r := by
  refine hes.history
    (P := fun es => ∀ r ∈ ((system cfg n l).after (system cfg n l).init es).pending, Refused cfg n l es r)
    (fun r hr => absurd hr List.not_mem_nil) fun es e _ _ ih r hr => ?_
  have hold : r ∈ ((system cfg n l).after (system cfg n l).init es).pending →
      Refused cfg n l (es ++ [e]) r := fun hr => by
    obtain ⟨fs, b, gs, rfl, hrefusal⟩ := ih r hr
    exact ⟨fs, b, gs ++ [e], by simp, hrefusal⟩
  rw [System.after_append] at hr
  cases e with
  | bind b =>
      rcases List.mem_append.mp hr with hr | hr
      · exact hold hr
      · exact ⟨es, b, [], rfl, Option.mem_toList.mp hr⟩
  | callback r' => exact hold (List.mem_of_mem_erase hr)
  | died key => exact hold hr
  | negotiated key inc => exact hold hr
  | rebound nodeId key => exact hold hr

theorem refusal_spec (h : s.refusal cfg b = some r) :
    (∃ why, (s.node.bindPolicyAt cfg b).verdict = .refused why) ∧ r.nodeId = b.nodeId ∧
      r.token = b.token ∧ r.incAtRefusal = s.links.incFor b.token := by
  unfold refusal at h
  split at h
  · rename_i why connId hwhy _
    cases h
    exact ⟨⟨why, hwhy⟩, rfl, rfl, rfl⟩
  · cases h

/-- What a callback does to the links: the one channel it can close is the incarnation that held the
refused key at the refusal, which it closes wherever that one is still there; it opens none, and it
unbinds no identity but the refused one from the refused key. -/
structure ClosesOnlyRefused (b : DoorBind) (atRefusal before after : DoorLinks) : Prop where
  only : ∀ key inc, before.incFor key = some inc → after.incFor key ≠ some inc →
    key = b.token ∧ atRefusal.incFor b.token = some inc
  closed : ∀ inc, atRefusal.incFor b.token = some inc → before.incFor b.token = some inc →
    after.incFor b.token = none
  opened : ∀ key, before.incFor key = none → after.incFor key = none
  bindings : ∀ nodeId, after.meshIdFor nodeId ≠ before.meshIdFor nodeId →
    nodeId = b.nodeId ∧ before.meshIdFor nodeId = some b.token

theorem callback_closesOnlyRefused (h : s.refusal cfg b = some r) :
    ClosesOnlyRefused b s.links l (r.callback l).1 := by
  obtain ⟨-, hnode, htoken, hinc⟩ := refusal_spec h
  refine ⟨fun key inc hbefore hafter => ?_, fun inc hrefused hbefore => ?_, fun key hbefore => ?_,
    fun nodeId hne => ?_⟩
  · by_cases hsame : l.incFor r.token = r.incAtRefusal
    · rw [incFor_callback_of_same hsame] at hafter
      by_cases hkey : key = r.token
      · refine ⟨hkey.trans htoken, ?_⟩
        rw [← hinc, ← hsame, ← hkey, hbefore]
      · rw [if_neg hkey] at hafter
        exact absurd hbefore hafter
    · rw [callback_of_ne hsame] at hafter
      exact absurd hbefore hafter
  · have hsame : l.incFor r.token = r.incAtRefusal := by
      rw [hinc, htoken, hrefused, hbefore]
    rw [incFor_callback_of_same hsame, htoken, if_pos rfl]
  · by_cases hsame : l.incFor r.token = r.incAtRefusal
    · rw [incFor_callback_of_same hsame, hbefore]
      exact ite_self _
    · rw [callback_of_ne hsame]
      exact hbefore
  · rw [← hnode, ← htoken]
    exact meshIdFor_callback hne

/-- A refused bind closes only what it refused: every callback that runs is that of a refusal, and
whatever happened since the refusal, it closes nothing but the incarnation refused. -/
theorem callback_of_refusal (hes : (system cfg n l).Valid (system cfg n l).init es) :
    (∀ es₁ r es₂, es = es₁ ++ .callback r :: es₂ → Refused cfg n l es₁ r) ∧
      ∀ fs b gs r es₂, es = fs ++ .bind b :: gs ++ .callback r :: es₂ →
        ((system cfg n l).after (system cfg n l).init fs).refusal cfg b = some r →
        ClosesOnlyRefused b ((system cfg n l).after (system cfg n l).init fs).links
          ((system cfg n l).after (system cfg n l).init (fs ++ .bind b :: gs)).links
          ((system cfg n l).after (system cfg n l).init
            (fs ++ .bind b :: gs ++ [.callback r])).links := by
  constructor
  · rintro es₁ r es₂ rfl
    obtain ⟨hes₁, hpending, -⟩ := System.along_append.mp hes
    exact refused_of_pending hes₁ r hpending
  · rintro fs b gs r es₂ - hrefusal
    rw [@System.after_append _ _ _ _ (fs ++ .bind b :: gs)]
    exact callback_closesOnlyRefused hrefusal

/-- The gate refuses identity 7 on the channel of `c2`. -/
def gated : DoorBind := { secondComer with preflight := .ok (false, js "full") }

def gatedLinks : DoorLinks where
  incFor key := if key = js "de:c2" then some 1 else none
  meshIdFor nodeId := if nodeId = 7 then some (js "de:c2") else none

/-- The refused channel dies and another is negotiated under its key before the callback runs. -/
def replaced : List LinkEvent := [.bind gated, .died (js "de:c2"), .negotiated (js "de:c2") 2]

def gatedRefusal : DoorRefusal where
  nodeId := 7
  token := js "de:c2"
  connId := js "c2"
  incAtRefusal := some 1

theorem callback_of_refusal_replaced :
    let start := (system oneSlot freshDoor gatedLinks).init
    let after := (system oneSlot freshDoor gatedLinks).after start
    ClosesOnlyRefused gated start.links (after replaced).links
        (after (replaced ++ [.callback gatedRefusal])).links ∧
      (after (replaced ++ [.callback gatedRefusal])).links.incFor (js "de:c2") = some 2 := by
  have hpending : gatedRefusal ∈ ((system oneSlot freshDoor gatedLinks).after
      (system oneSlot freshDoor gatedLinks).init replaced).pending := by decide +kernel
  have hrefusal : (system oneSlot freshDoor gatedLinks).init.refusal oneSlot gated =
      some gatedRefusal := by decide +kernel
  have hvalid : (system oneSlot freshDoor gatedLinks).Valid
      (system oneSlot freshDoor gatedLinks).init (replaced ++ [.callback gatedRefusal]) :=
    ⟨trivial, trivial, trivial, hpending, trivial⟩
  refine ⟨?_, by decide +kernel⟩
  exact (callback_of_refusal hvalid).2 [] gated [.died (js "de:c2"), .negotiated (js "de:c2") 2]
    gatedRefusal [] rfl hrefusal

end DoorTurns

end Node

end AxonaBridge
