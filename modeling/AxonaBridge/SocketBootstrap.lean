import AxonaBridge.JsMap
import AxonaBridge.JsText
import Mathlib.Data.List.TakeWhile

/-!
# The pure parts of the bootstrap door

The version comparison, the keys and the reserved id of the door, the sliding budget of make-room
retires and the two cooldown scopes of `socket_bootstrap.js`. The clock is an argument wherever the
program reads it.
-/

open JsText

namespace AxonaBridge

/-- `String(v).split('.').map(n => parseInt(n, 10) || 0)` -/
def versionParts (v : JsString) : List JsNum :=
  (split v 46).map fun n =>
    let x := parseInt n
    if x.isFalsy then .fin 0 else x

namespace SocketBootstrap

/-- What `resolveSocketBootstrap` answers with the flag on, as far as the door itself reads it. -/
structure Config where
  makeRoomPerMin : Nat := 4
  minKernel : JsString := js "4.107.0"
  cooldownMs : Int := 60000

/-! ### Names of the door -/

/-- `mintDoorEpoch`, with the draws of `random()`. -/
def mintDoorEpoch (random : Nat → ℚ) : JsString :=
  (List.range 8).flatMap fun i => intToString 16 ⌊random i * 16⌋

def reservedId (epoch : JsString) : JsString := js "c-self-" ++ epoch

/-- `d<epoch>:<connId>` -/
def doorKey (epoch connId : JsString) : JsString := 100 :: epoch ++ 58 :: connId

/-- Every unit but the colon. -/
def notColon (u : UInt16) : Bool := u ≠ 58

/-- The parts of a door key; `none` for anything else. -/
def parseDoorKey : JsString → Option (JsString × JsString)
  | 100 :: rest =>
      match rest.dropWhile notColon with
      | _ :: connId =>
          if rest.takeWhile notColon = [] ∨ connId = [] then none
          else some (rest.takeWhile notColon, connId)
      | [] => none
  | _ => none

/-- A door key of this epoch. -/
def isOwnDoorKey (key epoch : JsString) : Bool := (parseDoorKey key).any fun p => p.1 = epoch

theorem parseDoorKey_doorKey {epoch connId : JsString} (he : epoch ≠ []) (hcolon : 58 ∉ epoch)
    (hc : connId ≠ []) : parseDoorKey (doorKey epoch connId) = some (epoch, connId) := by
  have hall : ∀ u ∈ epoch, notColon u = true := fun u hu =>
    decide_eq_true fun h => hcolon (h ▸ hu)
  have hdrop : (epoch ++ 58 :: connId).dropWhile notColon = 58 :: connId := by
    rw [List.dropWhile_append_of_pos hall]
    rfl
  have htake : (epoch ++ 58 :: connId).takeWhile notColon = epoch := by
    rw [List.takeWhile_append_of_pos hall]
    exact List.append_nil epoch
  simp [parseDoorKey, doorKey, hdrop, htake, he, hc]

theorem doorKey_of_parseDoorKey {key epoch connId : JsString}
    (h : parseDoorKey key = some (epoch, connId)) :
    key = doorKey epoch connId ∧ epoch ≠ [] ∧ 58 ∉ epoch ∧ connId ≠ [] := by
  unfold parseDoorKey at h
  split at h
  · rename_i rest
    split at h
    · rename_i u c hdrop
      split at h
      · cases h
      · rename_i hne
        cases h
        rw [not_or] at hne
        have hu : u = 58 := by
          have := List.head?_dropWhile_not notColon rest
          rw [hdrop] at this
          simpa [notColon] using this
        refine ⟨?_, hne.1, ?_, hne.2⟩
        · rw [doorKey, ← hu, ← hdrop, List.cons_append, List.takeWhile_append_dropWhile]
        · intro hmem
          have := List.mem_takeWhile_imp hmem
          simp [notColon] at this
    · cases h
  · cases h

/-- `gteVersion` of the door: all components, the missing ones read as zero. -/
def gteVersion (a b : JsString) : Bool :=
  let pa := versionParts a
  let pb := versionParts b
  ((List.range (max pa.length pb.length)).findSome? fun i =>
    let x := pa.getD i (.fin 0)
    let y := pb.getD i (.fin 0)
    if x ≠ y then some (y.lt x) else none).getD true

/-! ### The budget of make-room retires -/

/-- `SlidingBudget`: the times of the spendings of the trailing window. -/
structure SlidingBudget where
  perMin : Nat
  windowMs : Int := 60000
  ts : List Int := []
  spent : Nat := 0
  refused : Nat := 0

namespace SlidingBudget

def prune (b : SlidingBudget) (now : Int) : SlidingBudget :=
  { b with ts := b.ts.dropWhile fun t => b.windowMs ≤ now - t }

/-- `ok`, with the budget after its pruning and counting. -/
def ok (b : SlidingBudget) (now : Int) : Bool × SlidingBudget :=
  let b := b.prune now
  if b.ts.length < b.perMin then (true, b) else (false, { b with refused := b.refused + 1 })

def spend (b : SlidingBudget) (now : Int) : SlidingBudget :=
  let b := b.prune now
  { b with ts := b.ts ++ [now], spent := b.spent + 1 }

end SlidingBudget

/-! ### The cooldowns after a retire -/

/-- `RecentlyRetired`: the last retire of an identity and of a connection id. -/
structure RecentlyRetired where
  cooldownMs : Int
  ids : JsMap JsString Int := JsMap.empty
  conns : JsMap JsString Int := JsMap.empty
  refusedIdentity : Nat := 0
  refusedConn : Nat := 0

namespace RecentlyRetired

/-- `_live`: whether a key is in cooldown, with the map after an expired key is dropped. -/
def live (r : RecentlyRetired) (map : JsMap JsString Int) (key : JsString) (now : Int) :
    Bool × JsMap JsString Int :=
  match map.get key with
  | none => (false, map)
  | some at_ => if now - at_ < r.cooldownMs then (true, map) else (false, map.delete key)

/-- `_bound`, on one scope. -/
def boundScope (r : RecentlyRetired) (map : JsMap JsString Int) (now : Int) : JsMap JsString Int :=
  if 1000 < map.size then map.filter fun e => now - e.2 < r.cooldownMs else map

def bound (r : RecentlyRetired) (now : Int) : RecentlyRetired :=
  { r with ids := r.boundScope r.ids now, conns := r.boundScope r.conns now }

def markIdentity (r : RecentlyRetired) (idHex : JsString) (now : Int) : RecentlyRetired :=
  { r with ids := if idHex = [] then r.ids else r.ids.set idHex now }.bound now

def markConn (r : RecentlyRetired) (connId : JsString) (now : Int) : RecentlyRetired :=
  { r with conns := if connId = [] then r.conns else r.conns.set connId now }.bound now

def hasIdentity (r : RecentlyRetired) (idHex : JsString) (now : Int) : Bool × RecentlyRetired :=
  let hit := r.live r.ids idHex now
  (hit.1, { r with
    ids := hit.2
    refusedIdentity := if hit.1 then r.refusedIdentity + 1 else r.refusedIdentity })

def hasConn (r : RecentlyRetired) (connId : JsString) (now : Int) : Bool × RecentlyRetired :=
  let hit := r.live r.conns connId now
  (hit.1, { r with
    conns := hit.2
    refusedConn := if hit.1 then r.refusedConn + 1 else r.refusedConn })

end RecentlyRetired

end SocketBootstrap

end AxonaBridge
