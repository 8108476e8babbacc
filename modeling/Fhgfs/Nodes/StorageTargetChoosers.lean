import Fhgfs.Nodes.TargetCapacityPools

/-!
# Choosing storage targets

`chooseStorageTargets` of `TargetCapacityPools` and `NodeCapacityPools`, whose code is the same:
the targets of a stripe set, from one pool after the other, with or without a list of preferred
targets. A division or modulo by zero, a read behind the last element and a loop without an end
are `none`.
-/

namespace Fhgfs.Nodes

open TargetCapacityPools

/-- `getNextInRange` as the `int` arithmetic has it. -/
def TargetCapacityPools.RandomReentrant.getNextInIntRange (randGen : RandomReentrant)
    (min max : Int) : Option (Int × RandomReentrant) :=
  if max - min + 1 = 0 then none
  else some (min + Int.tmod (randGen 0) (max - min + 1), fun i => randGen (i + 1))

namespace TargetSet

/-- The steps of a loop that only moves the iterator. -/
def moveIterInRing (targets : List Nat) : Nat → Nat → Nat
  | 0, iter => iter
  | steps + 1, iter => moveIterInRing targets steps (moveIterToNextRingElem targets iter)

/-- The last `left` rounds of the loop in `chooseStorageNodesNoPref`: a random target from each
of `numTargets` parts of the ring, of which the last one takes the remainder. -/
def pickFromParts (targets : List Nat) (numTargets partSize : Nat) :
    Nat → Nat → RandomReentrant → List Nat → Option (List Nat × RandomReentrant)
  | 0, _, randGen, outTargets => some (outTargets, randGen)
  | left + 1, iter, randGen, outTargets =>
    let i := numTargets - (left + 1)
    let rangeMin : Int := i * partSize
    let rangeMax : Int :=
      if i = numTargets - 1 then targets.length - 1 else rangeMin + partSize - 1
    match randGen.getNextInIntRange rangeMin rangeMax with
    | none => none
    | some (next, randGen) =>
      let iter := moveIterInRing targets (next - rangeMin).toNat iter
      match targets[iter]? with
      | none => none
      | some targetID =>
        pickFromParts targets numTargets partSize left
          (moveIterInRing targets (rangeMax + 1 - next).toNat iter) randGen
          (outTargets ++ [targetID])

def chooseStorageNodesNoPref (activeTargets : TargetSet) (numTargets : Nat)
    (randGen : RandomReentrant) (outTargets : List Nat) : Option (List Nat × RandomReentrant) :=
  let targets := activeTargets.elems
  if targets = [] then some (outTargets, randGen)
  else
    let numTargets := min numTargets targets.length
    if numTargets = 0 then none
    else
      let (iter, randGen) := moveIterToRandomElem targets randGen
      pickFromParts targets numTargets (targets.length / numTargets) numTargets iter randGen
        outTargets

/-- Stage 1 of `chooseStorageNodesWithPref`, one step for each preferred target. `chosen` is
`outTargetsSet`, in the order in which its targets were added to `outTargets`. -/
def pickPreferred (activeTargets : TargetSet) (preferredTargets : List Nat) :
    Nat → Nat → Nat → List Nat → Option (Nat × List Nat)
  | 0, _, numTargets, chosen => some (numTargets, chosen)
  | steps + 1, preferredIter, numTargets, chosen =>
    if numTargets = 0 then some (numTargets, chosen)
    else
      match preferredTargets[preferredIter]? with
      | none => none
      | some targetID =>
        let next := moveIterToNextRingElem preferredTargets preferredIter
        if activeTargets.contains targetID then
          pickPreferred activeTargets preferredTargets steps next (numTargets - 1)
            (chosen ++ [targetID])
        else pickPreferred activeTargets preferredTargets steps next numTargets chosen

/-- Stage 2 of `chooseStorageNodesWithPref`. After one round without the requested number, all
targets are chosen and the loop of the code goes on for ever. -/
def pickNonPreferred (targets : List Nat) : Nat → Nat → Nat → List Nat → Option (List Nat)
  | _, _, 0, chosen => some chosen
  | 0, _, _ + 1, _ => none
  | steps + 1, iter, numTargets + 1, chosen =>
    match targets[iter]? with
    | none => none
    | some targetID =>
      let next := moveIterToNextRingElem targets iter
      if targetID ∈ chosen then pickNonPreferred targets steps next (numTargets + 1) chosen
      else pickNonPreferred targets steps next numTargets (chosen ++ [targetID])

def chooseStorageNodesWithPref (activeTargets : TargetSet) (numTargets : Nat)
    (preferredTargets : List Nat) (allowNonPreferredTargets : Bool) (randGen : RandomReentrant)
    (outTargets : List Nat) : Option (List Nat × RandomReentrant) :=
  let targets := activeTargets.elems
  if targets = [] then some (outTargets, randGen)
  else
    let (preferredIter, randGen) := moveIterToRandomElem preferredTargets randGen
    match pickPreferred activeTargets preferredTargets preferredTargets.length preferredIter
        (min numTargets targets.length) [] with
    | none => none
    | some (numTargets, chosen) =>
      if allowNonPreferredTargets && decide (numTargets ≠ 0) then
        let (iter, randGen) := moveIterToRandomElem targets randGen
        match pickNonPreferred targets targets.length iter numTargets chosen with
        | none => none
        | some chosen => some (outTargets ++ chosen, randGen)
      else some (outTargets ++ chosen, randGen)

end TargetSet

variable (pools : CapacityPoolType → TargetSet)

variable (numTargets minNumRequiredTargets : Nat)

/-- The branch of `chooseStorageTargets` without preferred targets. The targets of the emergency
pool are not counted against those chosen before. -/
def chooseWithoutPreference (randGen : RandomReentrant) :
    Option (List Nat × RandomReentrant) := do
  let (outTargets, randGen) ← (pools .NORMAL).chooseStorageNodesNoPref numTargets randGen []
  if (pools .NORMAL).elems ≠ [] ∧ minNumRequiredTargets ≤ outTargets.length then
    return (outTargets, randGen)
  let (outTargets, randGen) ←
    (pools .LOW).chooseStorageNodesNoPref (numTargets - outTargets.length) randGen outTargets
  if (pools .LOW).elems ≠ [] ∧ minNumRequiredTargets ≤ outTargets.length then
    return (outTargets, randGen)
  (pools .EMERGENCY).chooseStorageNodesNoPref numTargets randGen outTargets

/-- The normal and the low pool with preferred targets. -/
def chooseAboveEmergency (preferredTargets : List Nat)
    (allowNonPreferredTargets : Bool) (randGen : RandomReentrant) (outTargets : List Nat) :
    Option (List Nat × RandomReentrant) := do
  let (outTargets, randGen) ← (pools .NORMAL).chooseStorageNodesWithPref numTargets
    preferredTargets allowNonPreferredTargets randGen outTargets
  if minNumRequiredTargets ≤ outTargets.length then return (outTargets, randGen)
  (pools .LOW).chooseStorageNodesWithPref (numTargets - outTargets.length) preferredTargets
    allowNonPreferredTargets randGen outTargets

/-- The branch of `chooseStorageTargets` with preferred targets. -/
def chooseWithPreference (preferredTargets : List Nat)
    (randGen : RandomReentrant) : Option (List Nat × RandomReentrant) := do
  let (outTargets, randGen) ←
    chooseAboveEmergency pools numTargets minNumRequiredTargets preferredTargets false randGen []
  if minNumRequiredTargets ≤ outTargets.length ∨ outTargets ≠ [] then
    return (outTargets, randGen)
  let (outTargets, randGen) ←
    chooseAboveEmergency pools numTargets minNumRequiredTargets preferredTargets true randGen
      outTargets
  if minNumRequiredTargets ≤ outTargets.length ∨ outTargets ≠ [] then
    return (outTargets, randGen)
  let (outTargets, randGen) ← (pools .EMERGENCY).chooseStorageNodesWithPref numTargets
    preferredTargets false randGen outTargets
  if outTargets ≠ [] then return (outTargets, randGen)
  (pools .EMERGENCY).chooseStorageNodesWithPref numTargets preferredTargets true randGen outTargets

/-- `chooseStorageTargets` on the pools of either class. No list and an empty one are the same. -/
def chooseFromPools (preferredTargets : Option (List Nat))
    (randGen : RandomReentrant) : Option (List Nat) :=
  let preferredTargets := preferredTargets.getD []
  let chosen :=
    if preferredTargets = [] then
      chooseWithoutPreference pools numTargets minNumRequiredTargets randGen
    else
      chooseWithPreference pools numTargets minNumRequiredTargets preferredTargets randGen
  chosen.map Prod.fst

def TargetCapacityPools.chooseStorageTargets (s : TargetCapacityPools)
    (numTargets minNumRequiredTargets : Nat) (preferredTargets : Option (List Nat))
    (randGen : RandomReentrant) : Option (List Nat) :=
  chooseFromPools s.pools numTargets minNumRequiredTargets preferredTargets randGen

/-- The pools of `NodeCapacityPools`, which are not grouped. -/
structure NodeCapacityPools where
  pools : CapacityPoolType → TargetSet

def NodeCapacityPools.chooseStorageTargets (s : NodeCapacityPools)
    (numTargets minNumRequiredTargets : Nat) (preferredTargets : Option (List Nat))
    (randGen : RandomReentrant) : Option (List Nat) :=
  chooseFromPools s.pools numTargets minNumRequiredTargets preferredTargets randGen

end Fhgfs.Nodes
