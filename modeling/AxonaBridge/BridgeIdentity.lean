import AxonaBridge.BridgeCredential

/-!
# One socket, one identity

A hello is verified against the nonce its own connection was greeted with, and the first identity that
is let through completes the connection's handshake. A later verification on the connection, of
whatever identity, finds the handshake complete and changes nothing; losing the binding does not undo
it.
-/

open JsText

namespace AxonaBridge

namespace Bindings

variable {b : Bindings} {connId : ConnId} {nodeId : NodeId} {P : NodeId → Prop}

/-- The handshake of the connection is complete, and it is bound to no identity outside `P`. -/
structure Holds (b : Bindings) (connId : ConnId) (P : NodeId → Prop) : Prop where
  complete : b.hello.get connId = some .complete
  only : ∀ nodeId, b.reverse.get connId = some nodeId → P nodeId

theorem Holds.greet (h : b.Holds connId P) (c : ConnId) : (b.greet c).Holds connId P := by
  refine ⟨?_, fun n hget => h.only n (reverse_greet c ▸ hget)⟩
  unfold Bindings.greet
  by_cases hhas : b.hello.has c = true
  · rw [if_pos hhas]
    exact h.complete
  · rw [if_neg hhas]
    have hne : connId ≠ c := fun heq => hhas (heq ▸ has_of_get h.complete)
    exact (JsMap.get_set_of_ne _ _ hne).trans h.complete

theorem Holds.complete_of (h : b.Holds connId P) (c : ConnId) (nodeId : NodeId) :
    (b.complete c nodeId).Holds connId P := by
  unfold Bindings.complete
  by_cases hdone : b.hello.get c = some .complete
  · rw [if_pos hdone]
    exact h
  · rw [if_neg hdone]
    have hne : connId ≠ c := fun heq => hdone (heq ▸ h.complete)
    refine ⟨(JsMap.get_set_of_ne _ _ hne).trans h.complete, fun n hget => h.only n ?_⟩
    exact (JsMap.get_set_of_ne _ _ hne).symm.trans hget

theorem Holds.unbind (h : b.Holds connId P) (c : ConnId) : (b.unbind c).Holds connId P :=
  ⟨h.complete, fun n hget => h.only n (Transport.get_of_get_delete hget)⟩

theorem Holds.shed (h : b.Holds connId P) (connIds : List ConnId) :
    (b.shed connIds).Holds connId P := by
  induction connIds generalizing b with
  | nil => exact h
  | cons c connIds ih => exact ih (h.unbind c)

theorem Holds.close (h : b.Holds connId P) {c : ConnId} (hne : connId ≠ c) :
    (b.close c).Holds connId P :=
  ⟨(JsMap.get_delete_of_ne _ hne).trans h.complete, (h.unbind c).only⟩

/-- A binding that is there after a shed was there before. -/
theorem reverse_of_shed {connIds : List ConnId} (h : (b.shed connIds).reverse.get connId = some nodeId) :
    b.reverse.get connId = some nodeId := by
  induction connIds generalizing b with
  | nil => exact h
  | cons c connIds ih => exact Transport.get_of_get_delete (ih h)

/-- Completing a handshake of the connection settles whom it is bound to. -/
theorem holds_complete (hdone : b.hello.get connId ≠ some .complete) :
    (b.complete connId nodeId).Holds connId (· = nodeId) := by
  unfold Bindings.complete
  rw [if_neg hdone]
  refine ⟨JsMap.get_set_self _ _ _, fun n hget => ?_⟩
  exact Option.some.inj (hget.symm.trans (JsMap.get_set_self _ _ _))

theorem complete_complete (connId : ConnId) (nodeId : NodeId) :
    (b.complete connId nodeId).hello.get connId = some .complete := by
  by_cases hdone : b.hello.get connId = some .complete
  · rw [Bindings.complete, if_pos hdone]
    exact hdone
  · exact (holds_complete hdone).complete

end Bindings

namespace Node.Greeted

theorem mono {n : Node} {G G' : ConnId → JsString → Prop} (h : n.Greeted G)
    (hG : ∀ connId nonce, G connId nonce → G' connId nonce) : n.Greeted G' :=
  ⟨fun connId nonce hget => hG connId nonce (h.nonce connId nonce hget),
    fun v hv => hG v.connId v.serverNonce (h.verifying v hv)⟩

end Node.Greeted

namespace Bridge

variable {cfg : Config} {reportBound : Bool} {b : Bridge} {e : Io × Event} {es : List (Io × Event)}
  {connId : ConnId}

/-- The step greets the connection with `sendHello`: a client-hello admits it, and not for a
credential alone. -/
def Greets (cfg : Config) (b : Bridge) (e : Io × Event) (connId : ConnId) : Prop :=
  ∃ json, e.2 = .message connId (.text (.ok json)) ∧
    Server.Admits cfg b.server connId (.text (.ok json)) ∧
      JsVal.asString (json.revive.field (js "intent")) ≠ some (js "turn-refresh")

/-- In the run the connection was greeted with this nonce. -/
def GreetedWith (cfg : Config) (reportBound : Bool) (es : List (Io × Event)) (connId : ConnId)
    (nonce : JsString) : Prop :=
  (system cfg reportBound).Sometime (fun b e => b.Greets cfg e connId ∧ e.1.nonce = nonce)
    (init cfg reportBound) es

/-- `verifyAuthHello` answers ok for a hello that is being verified. -/
def Verifies (b : Bridge) (e : Io × Event) (v : Verifying) (nodeId : JsString) : Prop :=
  ∃ i, e.2 = .verified i (.ok nodeId) ∧ b.server.node.verifying[i]? = some v

/-- `verifyAuthHello` answers ok, with an identity, only for a body that the identity's key signed over
the channel-binding value it was given. -/
def Authentic {Cbv : Type} (Signed : NodeId → Option JsVal → Cbv → Prop)
    (bridgeCbv : JsString → ConnId → Cbv) (b : Bridge) (e : Io × Event) : Prop :=
  ∀ v nodeId, b.Verifies e v nodeId →
    ∃ n : Nat, hexValue nodeId = some n ∧ Signed n v.body (bridgeCbv v.serverNonce v.connId)

/-! ### Who is greeted -/

/-- A client-hello that does not greet leaves the node as it was. -/
theorem node_of_not_greets (hmessage : ∃ data, e.2 = .message connId data ∧
    Server.Admits cfg b.server connId data) (h : ¬b.Greets cfg e connId) :
    (b.step cfg e).server.node = b.server.node := by
  obtain ⟨data, hevent, hadmits⟩ := hmessage
  obtain ⟨hpending, json, rfl, hhello, hpass⟩ := id hadmits
  obtain ⟨conn, hget, -⟩ := Option.map_eq_some_iff.mp hpending
  have hrefresh : JsVal.asString (json.revive.field (js "intent")) = some (js "turn-refresh") := by
    by_contra hnot
    exact h ⟨json, hevent, hadmits, hnot⟩
  rw [server_step_of_event hevent]
  exact Server.node_onMessage_credential hadmits hget (decide_eq_true hrefresh)

/-- Every nonce a hello is verified against is one its connection was greeted with. -/
theorem greeted_of_valid (hes : (system cfg reportBound).Valid (init cfg reportBound) es) :
    ((system cfg reportBound).after (init cfg reportBound) es).server.node.Greeted
      (GreetedWith cfg reportBound es) := by
  refine System.Valid.history (S := system cfg reportBound) (P := fun es =>
    ((system cfg reportBound).after (init cfg reportBound) es).server.node.Greeted
      (GreetedWith cfg reportBound es)) ?_ ?_ hes
  · exact ⟨fun _ _ h => (by cases h), fun _ h => (by cases h)⟩
  · intro es e _ _ h
    have hmono := h.mono fun c nonce hg => hg.append [e]
    rw [System.after_append]
    refine Server.greeted_step hmono e.2 fun c data hevent hadmits => ?_
    by_cases hgreets : ((system cfg reportBound).after (init cfg reportBound) es).Greets cfg e c
    · exact Or.inr (System.sometime_snoc.mpr (Or.inr ⟨hgreets, rfl⟩))
    · exact Or.inl (node_of_not_greets ⟨data, hevent, hadmits⟩ hgreets)

theorem Greets.isAdmitted (h : b.Greets cfg e connId) : (b.step cfg e).server.IsAdmitted connId := by
  obtain ⟨json, hevent, hadmits, -⟩ := h
  rw [server_step_of_event hevent, Server.isAdmitted_iff]
  exact ((Server.admission_onMessage connId _ connId).1 hadmits).trans (if_pos rfl)

theorem mem_everAdmitted_of_greetedWith
    (hes : (system cfg reportBound).Valid (init cfg reportBound) es) {nonce : JsString}
    (h : GreetedWith cfg reportBound es connId nonce) :
    connId ∈ ((system cfg reportBound).after (init cfg reportBound) es).everAdmitted := by
  obtain ⟨es₁, e, es₂, rfl, hgreets, -⟩ := h
  rw [System.after_append, System.after_cons]
  exact mem_everAdmitted_after (mem_everAdmitted_step.mpr (Or.inr hgreets.isAdmitted))

/-- A connection is greeted with one nonce. -/
theorem nonce_unique (hes : (system cfg reportBound).Valid (init cfg reportBound) es)
    {nonce nonce' : JsString} (h : GreetedWith cfg reportBound es connId nonce)
    (h' : GreetedWith cfg reportBound es connId nonce') : nonce = nonce' := by
  induction es using List.reverseRecOn with
  | nil => exact absurd h System.not_sometime_nil
  | append_singleton es e ih =>
      obtain ⟨hrun, -⟩ := System.along_append.mp hes
      have hold : ∀ nonce, GreetedWith cfg reportBound es connId nonce →
          ¬((system cfg reportBound).after (init cfg reportBound) es).Greets cfg e connId := by
        rintro nonce hg ⟨json, -, hadmits, -⟩
        exact (tracked_of_valid hrun).kept connId (mem_everAdmitted_of_greetedWith hrun hg) hadmits.1
      rcases System.sometime_snoc.mp h with h | ⟨hg, rfl⟩ <;>
        rcases System.sometime_snoc.mp h' with h' | ⟨hg', rfl⟩
      · exact ih hrun h h'
      · exact absurd hg' (hold nonce h)
      · exact absurd hg (hold nonce' h')
      · rfl

/-! ### Whom a connection is bound to -/

theorem connSeq_le_after {fs : List (Io × Event)} :
    b.connSeq ≤ ((system cfg reportBound).after b fs).connSeq := by
  induction fs generalizing b with
  | nil => exact le_rfl
  | cons e fs ih => exact connSeq_le_step.trans ih

/-- A minted connection that is in the table at the end of a run was in it all the time. -/
theorem has_of_has_after {fs : List (Io × Event)} (hrun : (system cfg reportBound).Valid b fs)
    (hminted : ∃ i, i ≤ b.connSeq ∧ connId = mintConnId i)
    (h : ((system cfg reportBound).after b fs).server.connections.has connId = true) :
    b.server.connections.has connId = true := by
  by_contra hnot
  have hgone : b.Gone connId := by
    refine ⟨?_, hminted⟩
    rw [Server.admission, JsMap.not_mem_keys_iff.mp fun hmem => hnot (JsMap.has_eq_true_iff.mpr hmem)]
    rfl
  have hstill := System.Along.invariant (S := system cfg reportBound) (C := Enabled cfg)
    (I := fun b : Bridge => b.Gone connId) (fun _ _ hg he => hg.step he) hgone hrun
  rw [Server.has_iff_admission, hstill.1] at h
  cases h

theorem consistent_of_valid (hes : (system cfg reportBound).Valid (init cfg reportBound) es) :
    ((system cfg reportBound).after (init cfg reportBound) es).server.node.bindings.Consistent :=
  System.Valid.invariant (S := system cfg reportBound)
    (I := fun b : Bridge => b.server.node.bindings.Consistent) (consistent_init reportBound)
    (fun _ e hb _ => Server.consistent_step hb e.2) hes

/-- Whom a connection is bound to stays settled as long as it is in the table. -/
theorem holds_step {P : NodeId → Prop} (h : b.server.node.bindings.Holds connId P)
    (hopen : (b.step cfg e).server.connections.has connId = true) :
    (b.step cfg e).server.node.bindings.Holds connId P := by
  rcases @Server.bindings_step cfg e.1 b.server e.2 with
    ⟨c, _, -, -, heq⟩ | ⟨c, code, reason, hevent, -, heq⟩ | ⟨_, _, c, n, -, -, heq⟩ | ⟨connIds, heq⟩
  · rw [step, heq]
    exact h.greet c
  · rw [step, heq]
    refine h.close ?_
    rintro rfl
    rw [server_step_of_event hevent, Server.has_iff_admission, Server.step,
      Server.admission_onClose, if_pos rfl] at hopen
    cases hopen
  · rw [step, heq]
    exact h.complete_of c n
  · rw [step, heq]
    exact h.shed connIds

theorem holds_after {P : NodeId → Prop} {fs : List (Io × Event)}
    (hrun : (system cfg reportBound).Valid b fs)
    (hminted : ∃ i, i ≤ b.connSeq ∧ connId = mintConnId i)
    (hopen : ((system cfg reportBound).after b fs).server.connections.has connId = true)
    (h : b.server.node.bindings.Holds connId P) :
    ((system cfg reportBound).after b fs).server.node.bindings.Holds connId P := by
  induction fs generalizing b with
  | nil => exact h
  | cons e fs ih =>
      have hminted' : ∃ i, i ≤ (b.step cfg e).connSeq ∧ connId = mintConnId i := by
        obtain ⟨i, hi, hid⟩ := hminted
        exact ⟨i, hi.trans connSeq_le_step, hid⟩
      exact ih hrun.2 hminted' hopen (holds_step h (has_of_has_after hrun.2 hminted' hopen))

/-- The step is the first that completes the handshake of a connection, with this identity. -/
def Completes (cfg : Config) (b : Bridge) (e : Io × Event) (connId : ConnId) (nodeId : NodeId) : Prop :=
  (∃ i res, e.2 = .verified i res ∧ b.server.node.proven cfg.node i res = some (connId, nodeId)) ∧
    b.server.node.bindings.hello.get connId ≠ some .complete

theorem bindings_verified_step {i : Nat} {res : Node.AuthResult} {nodeId : NodeId}
    (hevent : e.2 = .verified i res)
    (hproven : b.server.node.proven cfg.node i res = some (connId, nodeId)) :
    (b.step cfg e).server.node.bindings = b.server.node.bindings.complete connId nodeId := by
  have hverified := @Node.bindings_verified cfg.node e.1.kernel b.server.node i res
  rw [hproven] at hverified
  rw [server_step_of_event hevent, Server.step, Server.node_withNode]
  exact hverified

/-- A connection is bound to the identity that completed its handshake. -/
theorem completes_of_bound (hes : (system cfg reportBound).Valid (init cfg reportBound) es)
    {nodeId : NodeId}
    (h : ((system cfg reportBound).after (init cfg reportBound) es).server.node.bindings.reverse.get
      connId = some nodeId) :
    (system cfg reportBound).Sometime (fun b e => b.Completes cfg e connId nodeId)
      (init cfg reportBound) es := by
  induction es using List.reverseRecOn with
  | nil => cases h
  | append_singleton es e ih =>
      obtain ⟨hrun, -⟩ := System.along_append.mp hes
      refine System.sometime_snoc.mpr ?_
      rw [System.after_append, System.after_cons, System.after_nil] at h
      change (((system cfg reportBound).after (init cfg reportBound) es).server.step cfg e.1
        e.2).node.bindings.reverse.get connId = some nodeId at h
      rcases @Server.bindings_step cfg e.1 ((system cfg reportBound).after (init cfg reportBound)
        es).server e.2 with
        ⟨c, _, -, -, heq⟩ | ⟨c, _, _, -, -, heq⟩ | ⟨i, res, c, n, hevent, hproven, heq⟩ | ⟨connIds, heq⟩
      · rw [heq, Bindings.reverse_greet] at h
        exact Or.inl (ih hrun h)
      · rw [heq] at h
        exact Or.inl (ih hrun (Transport.get_of_get_delete h))
      · rw [heq] at h
        unfold Bindings.complete at h
        by_cases hdone : ((system cfg reportBound).after (init cfg reportBound)
          es).server.node.bindings.hello.get c = some .complete
        · rw [if_pos hdone] at h
          exact Or.inl (ih hrun h)
        · rw [if_neg hdone] at h
          dsimp only at h
          rw [JsMap.get_set] at h
          by_cases hid : connId = c
          · rw [if_pos hid] at h
            subst hid
            cases h
            exact Or.inr ⟨⟨i, res, hevent, hproven⟩, hdone⟩
          · rw [if_neg hid] at h
            exact Or.inl (ih hrun h)
      · rw [heq] at h
        exact Or.inl (ih hrun (Bindings.reverse_of_shed h))

/-- A handshake is completed by a verified hello of an identity the allowlist admits. -/
theorem Completes.verifies {nodeId : NodeId} (h : b.Completes cfg e connId nodeId) :
    ∃ v hex, b.Verifies e v hex ∧ v.connId = connId ∧ cfg.node.admits hex = true ∧
      ∃ n : Nat, hexValue hex = some n ∧ (n : Int) = nodeId := by
  obtain ⟨⟨i, res, hevent, hproven⟩, -⟩ := h
  unfold Node.proven at hproven
  split at hproven
  · cases hproven
  · rename_i hex
    split at hproven
    · cases hproven
    · rename_i v hv
      split at hproven
      · rename_i hadmits
        cases hn : hexValue hex with
        | none =>
            rw [hn] at hproven
            cases hproven
        | some n =>
            rw [hn] at hproven
            cases hproven
            exact ⟨v, hex, ⟨i, hevent, hv⟩, rfl, hadmits, n, hn, rfl⟩
      · cases hproven

/-- A hello that is let through leaves the handshake complete. -/
theorem holds_of_verifies {v : Verifying} {hex : JsString} {n : Nat} (h : b.Verifies e v hex)
    (hadmits : cfg.node.admits hex = true) (hn : hexValue hex = some n) :
    (b.step cfg e).server.node.bindings.Holds v.connId fun _ => True := by
  obtain ⟨i, hevent, hv⟩ := h
  have hproven : b.server.node.proven cfg.node i (.ok hex) = some (v.connId, (n : Int)) := by
    unfold Node.proven
    rw [hv]
    dsimp only
    rw [if_pos hadmits, hn]
    rfl
  rw [bindings_verified_step hevent hproven]
  exact ⟨Bindings.complete_complete _ _, fun _ _ => trivial⟩

/-- A hello of an identity the allowlist keeps out has the server close the connection. -/
theorem closes_of_verifies {v : Verifying} {hex : JsString} (h : b.Verifies e v hex)
    (hrefused : cfg.node.admits hex = false) (hopen : b.server.connections.has v.connId = true) :
    ∃ reason threw, Out.close v.connId upgradeRequired reason threw ∈ (b.step cfg e).server.out := by
  obtain ⟨i, hevent, hv⟩ := h
  rw [server_step_of_event hevent, Server.step, Node.verified, hv]
  dsimp only
  rw [if_pos (by simp [hrefused])]
  refine ⟨js "not on the closed-fleet allowlist",
    Server.closeThrows e.1 v.connId (js "not on the closed-fleet allowlist"), ?_⟩
  simp only [Server.withNode, List.foldl_cons, List.foldl_nil]
  rw [Server.perform, Server.connections_perform]
  rw [if_pos hopen]
  exact List.mem_append_right _ List.mem_cons_self

theorem minted_of_verifies (hb : b.Tracked) {v : Verifying} {hex : JsString} (h : b.Verifies e v hex) :
    ∃ i, i ≤ b.connSeq ∧ v.connId = mintConnId i := by
  obtain ⟨i, -, hv⟩ := h
  exact hb.minted _ (Or.inl (hb.node.verifying v (List.mem_of_getElem? hv)))

/-- What a connection is bound to at the end of a run: at most one identity, proven by a hello over its
own nonce, before which no other identity was proven on it and let through; the same as at any earlier
moment, as long as it is open; and none, if it was never greeted. -/
structure SpeaksForOne {Cbv : Type} (Signed : NodeId → Option JsVal → Cbv → Prop)
    (bridgeCbv : JsString → ConnId → Cbv) (cfg : Config) (reportBound : Bool) (es : List (Io × Event))
    (connId : ConnId) : Prop where
  proven : ∀ nodeId,
    ((system cfg reportBound).after (init cfg reportBound) es).server.node.transport.nodeIdFor connId =
      some nodeId →
    ∃ es₁ e es₂ v hex, es = es₁ ++ e :: es₂ ∧
      ((system cfg reportBound).after (init cfg reportBound) es₁).Verifies e v hex ∧
      v.connId = connId ∧ cfg.node.admits hex = true ∧
      (∃ n : Nat, hexValue hex = some n ∧ (n : Int) = nodeId) ∧
      Signed nodeId v.body (bridgeCbv v.serverNonce connId) ∧
      GreetedWith cfg reportBound es₁ connId v.serverNonce ∧
      (((system cfg reportBound).after (init cfg reportBound) es).server.connections.has connId = true →
        ∀ es₃ f es₄ v' hex', es₁ = es₃ ++ f :: es₄ →
          ((system cfg reportBound).after (init cfg reportBound) es₃).Verifies f v' hex' →
            v'.connId = connId → cfg.node.admits hex' = false ∧
              ∃ reason threw, Out.close connId upgradeRequired reason threw ∈
                ((system cfg reportBound).after (init cfg reportBound) (es₃ ++ [f])).server.out)
  nonce : ∀ nonce nonce', GreetedWith cfg reportBound es connId nonce →
    GreetedWith cfg reportBound es connId nonce' → nonce = nonce'
  forward : ∀ nodeId,
    ((system cfg reportBound).after (init cfg reportBound) es).server.node.transport.connIdFor nodeId =
      some connId →
    ((system cfg reportBound).after (init cfg reportBound) es).server.node.transport.nodeIdFor connId =
      some nodeId
  kept : ∀ es₁ es₂ nodeId nodeId', es = es₁ ++ es₂ →
    ((system cfg reportBound).after (init cfg reportBound) es).server.connections.has connId = true →
    ((system cfg reportBound).after (init cfg reportBound) es₁).server.node.transport.nodeIdFor connId =
      some nodeId →
    ((system cfg reportBound).after (init cfg reportBound) es).server.node.transport.nodeIdFor connId =
      some nodeId' → nodeId' = nodeId
  ungreeted : (∀ nonce, ¬GreetedWith cfg reportBound es connId nonce) →
    ((system cfg reportBound).after (init cfg reportBound) es).server.node.transport.nodeIdFor connId =
      none

section

variable {Cbv : Type} {Signed : NodeId → Option JsVal → Cbv → Prop} {bridgeCbv : JsString → ConnId → Cbv}

/-- An identity proven on an open connection before its handshake was complete was not let through. -/
theorem refused_of_verifies {es₃ es₄ : List (Io × Event)} {f : Io × Event} {v : Verifying}
    {hex : JsString} {fs : List (Io × Event)}
    (hes : (system cfg reportBound).Valid (init cfg reportBound) ((es₃ ++ f :: es₄) ++ fs))
    (hauth : (system cfg reportBound).Along (Authentic Signed bridgeCbv) (init cfg reportBound)
      ((es₃ ++ f :: es₄) ++ fs))
    (hopen : ((system cfg reportBound).after (init cfg reportBound)
      ((es₃ ++ f :: es₄) ++ fs)).server.connections.has v.connId = true)
    (hpending : ((system cfg reportBound).after (init cfg reportBound)
      (es₃ ++ f :: es₄)).server.node.bindings.hello.get v.connId ≠ some .complete)
    (hv : ((system cfg reportBound).after (init cfg reportBound) es₃).Verifies f v hex) :
    cfg.node.admits hex = false ∧
      ((system cfg reportBound).after (init cfg reportBound) es₃).server.connections.has v.connId = true := by
  rw [List.append_assoc] at hes hauth hopen
  obtain ⟨hrun₃, hrun⟩ := System.along_append.mp hes
  obtain ⟨-, hauthf, -⟩ := System.along_append.mp hauth
  rw [System.after_append] at hopen
  obtain ⟨i, hi, hid⟩ := minted_of_verifies (tracked_of_valid hrun₃) hv
  refine ⟨?_, has_of_has_after hrun ⟨i, hi, hid⟩ hopen⟩
  by_contra hnot
  have hadmits : cfg.node.admits hex = true := by simpa using hnot
  obtain ⟨n, hn, -⟩ := hauthf v hex hv
  have hholds := holds_of_verifies hv hadmits hn
  have hminted : ∃ i, i ≤ (((system cfg reportBound).after (init cfg reportBound) es₃).step cfg f).connSeq ∧
      v.connId = mintConnId i := ⟨i, hi.trans connSeq_le_step, hid⟩
  obtain ⟨hrun₄, hrunfs⟩ := System.along_append.mp hrun.2
  have hopen₄ := has_of_has_after hrunfs (by
    obtain ⟨j, hj, hjd⟩ := hminted
    exact ⟨j, hj.trans connSeq_le_after, hjd⟩) (by
    rw [← System.after_append]
    exact hopen)
  have hlast := holds_after hrun₄ hminted hopen₄ hholds
  apply hpending
  rw [System.after_append, System.after_cons]
  exact hlast.complete

/-- **A socket speaks for one proven identity.** -/
theorem speaksForOne (Signed : NodeId → Option JsVal → Cbv → Prop) (bridgeCbv : JsString → ConnId → Cbv)
    (cfg : Config) (reportBound : Bool) (es : List (Io × Event))
    (hes : (system cfg reportBound).Valid (init cfg reportBound) es)
    (hauth : (system cfg reportBound).Along (Authentic Signed bridgeCbv) (init cfg reportBound) es)
    (connId : ConnId) : SpeaksForOne Signed bridgeCbv cfg reportBound es connId := by
  have hproven : ∀ nodeId, ((system cfg reportBound).after (init cfg reportBound)
      es).server.node.bindings.reverse.get connId = some nodeId →
      ∃ es₁ e es₂ v hex, es = es₁ ++ e :: es₂ ∧
        ((system cfg reportBound).after (init cfg reportBound) es₁).Completes cfg e connId nodeId ∧
        ((system cfg reportBound).after (init cfg reportBound) es₁).Verifies e v hex ∧
        v.connId = connId ∧ cfg.node.admits hex = true ∧
        (∃ n : Nat, hexValue hex = some n ∧ (n : Int) = nodeId) ∧
        GreetedWith cfg reportBound es₁ connId v.serverNonce := by
    intro nodeId hbound
    obtain ⟨es₁, e, es₂, rfl, hcompletes⟩ := completes_of_bound hes hbound
    obtain ⟨v, hex, hv, rfl, hadmits, hn⟩ := hcompletes.verifies
    obtain ⟨hrun₁, -⟩ := System.along_append.mp hes
    obtain ⟨i, -, hmem⟩ := id hv
    have hgreeted := (greeted_of_valid hrun₁).verifying v (List.mem_of_getElem? hmem)
    exact ⟨es₁, e, es₂, v, hex, rfl, hcompletes, hv, rfl, hadmits, hn, hgreeted⟩
  constructor
  · intro nodeId hbound
    obtain ⟨es₁, e, es₂, v, hex, rfl, hcompletes, hv, rfl, hadmits, ⟨n, hn, rfl⟩, hgreeted⟩ :=
      hproven nodeId hbound
    obtain ⟨-, hauthe, -⟩ := System.along_append.mp hauth
    obtain ⟨n', hn', hsigned⟩ := hauthe v hex hv
    cases hn.symm.trans hn'
    refine ⟨es₁, e, es₂, v, hex, rfl, hv, rfl, hadmits, ⟨n, hn, rfl⟩, hsigned, hgreeted, ?_⟩
    rintro hopen es₃ f es₄ v' hex' rfl hv' hid
    rw [← hid] at hopen
    obtain ⟨hrefused, hhas⟩ := refused_of_verifies hes hauth hopen (hid ▸ hcompletes.2) hv'
    refine ⟨hrefused, ?_⟩
    rw [System.after_append, ← hid]
    exact closes_of_verifies hv' hrefused hhas
  · exact fun nonce nonce' h h' => nonce_unique hes h h'
  · intro nodeId hforward
    exact (consistent_of_valid hes).reverse_of_forward nodeId connId hforward
  · rintro es₁ es₂ nodeId nodeId' rfl hopen hbefore hafter
    obtain ⟨hrun₁, hrun₂⟩ := System.along_append.mp hes
    have hb := tracked_of_valid hrun₁
    have hholds : ((system cfg reportBound).after (init cfg reportBound)
        es₁).server.node.bindings.Holds connId (· = nodeId) := by
      refine ⟨(consistent_of_valid hrun₁).complete_of_reverse connId nodeId hbefore, fun n hget => ?_⟩
      exact Option.some.inj (hget.symm.trans hbefore)
    have hminted := hb.minted connId (Or.inl (hb.node.transport.reverse connId nodeId hbefore))
    rw [System.after_append] at hopen hafter
    exact (holds_after hrun₂ hminted hopen hholds).only nodeId' hafter
  · intro hnever
    cases hbound : ((system cfg reportBound).after (init cfg reportBound)
        es).server.node.transport.nodeIdFor connId with
    | none => rfl
    | some nodeId =>
        obtain ⟨es₁, e, es₂, v, _, rfl, -, -, -, -, -, hgreeted⟩ := hproven nodeId hbound
        exact absurd (hgreeted.append (e :: es₂)) (hnever v.serverNonce)

end

/-- The hello of `handshake` is signed by identity 7 over the nonce and the id of its connection. -/
theorem speaksForOne_handshake :
    SpeaksForOne (fun nodeId _ cbv => nodeId = 7 ∧ cbv = (js "nonce", js "c1"))
      (fun nonce connId => (nonce, connId)) Server.plain false handshake (js "c1") := by
  refine speaksForOne _ _ Server.plain false handshake valid_handshake ?_ (js "c1")
  refine ⟨?_, ?_, ?_, ?_, trivial⟩
  · rintro v hex ⟨i, hevent, -⟩
    cases hevent
  · rintro v hex ⟨i, hevent, -⟩
    cases hevent
  · rintro v hex ⟨i, hevent, -⟩
    cases hevent
  · rintro v hex ⟨i, hevent, hv⟩
    cases hevent
    have hfirst : v.serverNonce = js "nonce" ∧ v.connId = js "c1" := by
      have hmap : ((System.after (system Server.plain false) (init Server.plain false)
          (handshake.take 3)).server.node.verifying[0]?).map (fun v => (v.serverNonce, v.connId)) =
            some (js "nonce", js "c1") := by decide +kernel
      have heq := (congrArg (Option.map fun v : Verifying => (v.serverNonce, v.connId)) hv).symm.trans hmap
      exact Prod.mk.inj (Option.some.inj heq)
    exact ⟨7, by decide +kernel, rfl, by rw [hfirst.1, hfirst.2]⟩

end Bridge

end AxonaBridge
