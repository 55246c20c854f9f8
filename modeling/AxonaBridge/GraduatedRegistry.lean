import AxonaBridge.AnchorSelect
import AxonaBridge.JsMap

/-!
# The memory of the graduated

`GraduatedRegistry` of `graduated_registry.js`. The oldest registration stands first, so the bound
evicts and the expiry sweeps from the front. A random draw is a natural number, reduced to the range
that remains.
-/

open JsText

namespace JsMap

variable {κ ν : Type}

/-- Drop entries from the front. -/
def dropOldest (m : JsMap κ ν) (n : Nat) : JsMap κ ν where
  entries := m.entries.drop n
  nodup := m.nodup.sublist ((List.drop_sublist n m.entries).map Prod.fst)

/-- Drop entries from the front as long as they satisfy a test. -/
def dropWhile (m : JsMap κ ν) (p : κ × ν → Bool) : JsMap κ ν where
  entries := m.entries.dropWhile p
  nodup := m.nodup.sublist ((List.dropWhile_sublist p).map Prod.fst)

end JsMap

namespace AxonaBridge

structure GraduatedRegistry where
  lRegMs : Int
  mReg : Nat
  map : JsMap JsString Int := JsMap.empty
  rejected : Nat := 0
  evicted : Nat := 0
  expired : Nat := 0

namespace GraduatedRegistry

def note (r : GraduatedRegistry) (hex : JsString) (now : Int) : GraduatedRegistry :=
  if isHex66 hex then
    let map := (r.map.delete hex).set hex now
    { r with map := map.dropOldest (map.size - r.mReg), evicted := r.evicted + (map.size - r.mReg) }
  else { r with rejected := r.rejected + 1 }

def prune (r : GraduatedRegistry) (now : Int) : GraduatedRegistry :=
  let map := r.map.dropWhile fun e => r.lRegMs ≤ now - e.2
  { r with map, expired := r.expired + (r.map.size - map.size) }

/-- One swap of the partial Fisher–Yates shuffle. -/
def shuffleStep (draws : List Nat) (pool : List JsString) (i : Nat) : List JsString :=
  let j := i + draws.getD i 0 % (pool.length - i)
  match pool[i]?, pool[j]? with
  | some a, some b => (pool.set i b).set j a
  | _, _ => pool

/-- `sample`: the ids drawn and the registry after its expiry sweep. -/
def sample (r : GraduatedRegistry) (count : Nat) (exclude : Option JsString) (now : Int)
    (draws : List Nat) : List JsString × GraduatedRegistry :=
  if count = 0 then ([], r)
  else
    let r := r.prune now
    let pool := r.map.keys.filter fun hex => some hex ≠ exclude
    let n := min count pool.length
    (((List.range n).foldl (shuffleStep draws) pool).take n, r)

end GraduatedRegistry

end AxonaBridge
