import TableScript.Yaml.Making

/-!
# Tying containers together

What the nodes of a document have become is one value in the end. A container that is met inside
itself is replaced by its label. It becomes a knot of that label, and so does every container
between the two, since it contains itself as well. A container that is a part of several others is
tied once, as long as the containers around it are those that its labels speak of.
-/

namespace TableScript.Yaml

/-- A part as a value. -/
structure Tied where
  value : Value
  /-- The labels in it that belong to containers around it. -/
  free : List NodeId

namespace Tied

/-- Puts parts together. -/
def join (f : List Value → Value) (parts : List Tied) : Tied :=
  ⟨f (parts.map (·.value)), (parts.flatMap (·.free)).eraseDups⟩

def isKnot (t : Tied) : Bool :=
  match t.value with
  | .knot .. => true
  | _ => false

/-- A container that has been tied, under its label if it contains itself. That is so if any label
stands in it, or if it has been found to be a knot `before`. -/
def close (id : NodeId) (before : Option Tied) (t : Tied) : Tied :=
  if t.free.isEmpty && !before.any isKnot then t
  else ⟨.knot id t.value, t.free.filter (· != id)⟩

end Tied

namespace Made

def holdsEntries (m : Made) (id : NodeId) : Bool :=
  match m.fillings.getD id none with
  | some (.mapping _) => true
  | _ => false

/-- Ties a part that stands inside some containers. The state holds what has been tied before. -/
def tie (m : Made) : Nat → List NodeId → Part → StateM (Array (Option Tied)) Tied
  | 0, _, _ => return ⟨.null, []⟩
  | fuel + 1, around, part => do
    match part with
    | .value v => return ⟨v, []⟩
    | .container id =>
      if around.contains id then return ⟨.again id (m.holdsEntries id), [id]⟩
      else
        let before := (← get).getD id none
        match before.filter fun t => t.free.all around.contains with
        | some t => return t
        | none => do
          let inside := id :: around
          let body ← match m.fillings.getD id none with
            | some (.list items) => do
              let parts ← items.mapM fun p => tie m fuel inside p
              pure (Tied.join .list parts)
            | some (.mapping entries) => do
              let parts ← entries.mapM fun e => tie m fuel inside e.2
              pure (Tied.join (fun vs => .mapping ((entries.map (·.1)).zip vs)) parts)
            | some (.set members) => pure ⟨.set (members.map (·.1)), []⟩
            | some (.pairs items) => do
              let parts ← items.mapM fun p => do
                let first ← tie m fuel inside p.1
                let second ← tie m fuel inside p.2
                return ⟨.pair first.value second.value, first.free ++ second.free⟩
              pure (Tied.join .list parts)
            | none => pure ⟨.null, []⟩
          let tied := Tied.close id before body
          modify fun done => done.setIfInBounds id (some tied)
          return tied

def value (m : Made) : Value :=
  let (tied, _) := (m.tie (m.fillings.size + 2) [] m.root).run
    (Array.replicate m.fillings.size none)
  tied.value

end Made

end TableScript.Yaml
