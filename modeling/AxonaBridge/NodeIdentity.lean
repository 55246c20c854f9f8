import AxonaBridge.NodeModel
import AxonaBridge.StrictSettings

/-!
# The identity of the node

`identity.js`: the region that `BRIDGE_REGION` asks for, and the id that the kernel mints in it. A kernel
that does not know of regions mints an id all the same, and the process does not come up with it.
-/

open JsText

namespace AxonaBridge

/-- What is kept of the identity the kernel mints. -/
structure BridgeIdentity where
  id : NodeId
  idHex : JsString
  /-- `region.requested` -/
  requested : Option JsString
  value : (hexValue idHex).map Int.ofNat = some id

namespace BridgeIdentity

/-- `BRIDGE_REGION`, of the variable. -/
def requestedRegion (raw : Option JsString) : Option JsString :=
  let region := trim (raw.getD [])
  if region = [] then none else some region

/-- `REGION_BYTE_BY_NAME[region]` as text. What it has from its prototype is no byte, and true for all that. -/
def regionByte (region : JsString) : Option JsString :=
  if region = js "bridge" then some (js "ff")
  else if region ∈ objectPrototype then some (prototypeText region)
  else none

def unknownRegion (region : JsString) : JsString :=
  js "BRIDGE_REGION='" ++ region ++
    js "' is not a region this bridge knows how to request (known: bridge)"

def regionNotApplied (region want got : JsString) : JsString :=
  js "BRIDGE_REGION='" ++ region ++ js "' requested byte 0x" ++ want ++ js " but the kernel minted 0x" ++
    got ++ js (": the kernel does not honour the region override (needs @axona/protocol >= 4.88.0); " ++
      "refusing to start")

def assertRegionApplied (kernelId : JsString) (requestedRegion : Option JsString) :
    Except JsString Unit :=
  match requestedRegion.filter (· ≠ []) with
  | none => .ok ()
  | some region =>
      match regionByte region with
      | none => .error (unknownRegion region)
      | some want =>
          let got := toLowerCase (kernelId.take 2)
          if got = want then .ok () else .error (regionNotApplied region want got)

def buildHybrid (kernelId : JsString) (requested : Option JsString) : Except JsString BridgeIdentity :=
  match h : hexValue kernelId with
  | none => .error (js "Cannot convert 0x" ++ kernelId ++ js " to a BigInt")
  | some id => .ok { id, idHex := kernelId, requested, value := by rw [h]; rfl }

/-- `loadOrDeriveIdentity`, with what the kernel mints of the region it is asked for. -/
def loadOrDerive (raw : Option JsString)
    (createNodeIdentity : Option JsString → Except JsString JsString) : Except JsString BridgeIdentity := do
  let region := requestedRegion raw
  let kernelId ← createNodeIdentity region
  assertRegionApplied kernelId region
  buildHybrid kernelId region

/-! ### What is minted -/

section Minted

variable {kernelId region : JsString} {requested raw : Option JsString} {identity : BridgeIdentity}

example : regionByte (js "constructor") = some (js "function Object() \x7b [native code] \x7d") := by
  decide +kernel

end Minted

end BridgeIdentity

end AxonaBridge
