import TableScript.Yaml.Graph
import TableScript.Yaml.ScalarValue

/-!
# What nodes become

A scalar becomes a value at once. A sequence or a mapping becomes a container that is empty at
first; it waits until all containers that were met before it have been filled, and so a node can be
a part of itself. Of two nodes without a value the one that is met first is the failure.

Before a mapping is filled, the mappings that are merged into it are put in front of its own
entries, so that these win. Merging changes a node for good, but what it has become by then stays.
-/

namespace TableScript.Yaml

/-- What a node has become. -/
inductive Part where
  | value (v : Value)
  | container (id : NodeId)

/-- What a container holds. -/
inductive Filling where
  | list (items : List Part)
  | mapping (entries : Keyed Part)
  | set (members : Keyed Part)
  | pairs (items : List (Part × Part))

/-- How far a document has been made. -/
structure Making where
  graph : Graph
  /-- The containers that wait to be filled, the last one first. -/
  waiting : List NodeId
  parts : Array (Option Part)
  fillings : Array (Option Filling)

/-- A step of making a document. -/
abbrev Maker (α : Type) := StateT Making (Except Failure) α

namespace Maker

/-- Refuses a node that has no value. -/
def refuse {α : Type} : Maker α := throw .malformed

def node (id : NodeId) : Maker Node := return (← get).graph.node id

def modifyGraph (f : Graph → Graph) : Maker Unit := modify fun s => { s with graph := f s.graph }

def entries (id : NodeId) : Maker (List (NodeId × NodeId)) :=
  return ((← get).graph.entries? id).getD []

def hasTag (tag : Tag) (id : NodeId) : Maker Bool := return (← node id).tag = tag

/-- The first entry whose key has a type. -/
def findKey? (tag : Tag) : List (NodeId × NodeId) → Maker (Option (NodeId × NodeId))
  | [] => return none
  | e :: rest => do
    let found ← hasTag tag e.1
    if found then return some e else findKey? tag rest

/-- The entries without the first one whose key has a type. -/
def dropKey (tag : Tag) : List (NodeId × NodeId) → Maker (List (NodeId × NodeId))
  | [] => return []
  | e :: rest => do
    let found ← hasTag tag e.1
    if found then return rest else return e :: (← dropKey tag rest)

/-! ## Merging -/

/-- Takes the first merged node out of a mapping. -/
def takeMerged? (id : NodeId) : Maker (Option NodeId) := do
  let all ← entries id
  match ← findKey? .merge all with
  | none => return none
  | some e => do
    let rest ← dropKey .merge all
    modifyGraph fun g => g.setContent id (.mapping rest)
    return some e.2

/-- The key that stands for the main value becomes an ordinary text. -/
def plainKey (id : NodeId) : Maker Unit := do
  let isMain ← hasTag .main id
  if isMain then modifyGraph fun g => g.setTag id .text

mutual

/-- Puts the merged entries of a mapping in front of its own. -/
def flatten (id : NodeId) : Nat → Maker Unit
  | 0 => refuse
  | fuel + 1 => do
    let merged ← collect id [] fuel
    let own ← entries id
    own.forM fun e => plainKey e.1
    modifyGraph fun g => g.setContent id (.mapping (merged ++ own))

/-- The merged entries of a mapping, after those that have been found. -/
def collect (id : NodeId) (found : List (NodeId × NodeId)) :
    Nat → Maker (List (NodeId × NodeId))
  | 0 => refuse
  | fuel + 1 => do
    match ← takeMerged? id with
    | none => return found
    | some source => do
      let more ← mergedFrom source fuel
      collect id (found ++ more) fuel

/-- The entries that a merged node gives. Of several mappings the first one comes last, so that it
wins. -/
def mergedFrom (source : NodeId) : Nat → Maker (List (NodeId × NodeId))
  | 0 => refuse
  | fuel + 1 => do
    match (← node source).content with
    | .scalar _ => refuse
    | .mapping _ => do
      flatten source fuel
      entries source
    | .sequence items => do
      let parts ← items.mapM fun item => do
        match (← node item).content with
        | .mapping _ => do
          flatten item fuel
          entries item
        | _ => refuse
      return parts.reverse.flatten

end

/-- Flattens a mapping. Each step inwards takes a merged node out, so there are no more steps than
entries. -/
def flattenAll (id : NodeId) : Maker Unit := do
  flatten id (3 * (← get).graph.entryCount + 3)

/-! ## Making parts -/

/-- The text of a scalar. A mapping stands for its main value. -/
def scalarText (id : NodeId) : Nat → Maker String
  | 0 => throw .tooDeep
  | fuel + 1 => do
    match (← node id).content with
    | .scalar text => return text
    | .sequence _ => refuse
    | .mapping all => do
      match ← findKey? .main all with
      | some e => scalarText e.2 fuel
      | none => refuse

/-- The value of a node whose type is that of a scalar. A moment has to be a scalar itself. -/
def makeValue (id : NodeId) (tag : Tag) : Maker Value := do
  let text ← scalarText id ((← get).graph.size + 1)
  match tag, (← node id).content with
  | .timestamp, .mapping _ => throw .wrongType
  | _, _ => Scalar.value tag text

/-- What a node becomes that is met for the first time. A container has to wait. -/
def makeNew (id : NodeId) : Maker Part := do
  match (← node id).tag with
  | .merge | .main | .unknown => refuse
  | .list | .mapping | .set | .orderedMapping | .pairs => do
    modify fun s => { s with waiting := id :: s.waiting }
    return .container id
  | tag => return .value (← makeValue id tag)

def make (id : NodeId) : Maker Part := do
  match (← get).parts.getD id none with
  | some part => return part
  | none => do
    let part ← makeNew id
    modify fun s => { s with parts := s.parts.setIfInBounds id (some part) }
    return part

/-- The key that a node becomes; a container is none. -/
def makeKey (id : NodeId) : Maker Value := do
  match ← make id with
  | .value v => if v.isKey then return v else refuse
  | .container _ => refuse

/-- What the entries of a mapping become. Of two entries with the same key the later one counts, at
the place of the first. -/
def makeEntries (id : NodeId) : Maker (Keyed Part) := do
  flattenAll id
  (← entries id).foldlM (fun found e => do
    let key ← makeKey e.1
    let part ← make e.2
    return found.put key part) []

/-- What a mapping with a single entry becomes. -/
def makePair (id : NodeId) : Maker (Part × Part) := do
  match ← entries id with
  | [e] => do
    let first ← make e.1
    let second ← make e.2
    return (first, second)
  | _ => refuse

def makeFilling (id : NodeId) : Maker Filling := do
  let n ← node id
  match n.tag, n.content with
  | .list, .sequence items => return .list (← items.mapM make)
  | .mapping, .mapping _ => return .mapping (← makeEntries id)
  | .set, .mapping _ => return .set (← makeEntries id)
  | .orderedMapping, .sequence items => return .pairs (← items.mapM makePair)
  | .pairs, .sequence items => return .pairs (← items.mapM makePair)
  | _, _ => refuse

def fill (id : NodeId) : Maker Unit := do
  let filling ← makeFilling id
  modify fun s => { s with fillings := s.fillings.setIfInBounds id (some filling) }

/-- Fills the containers that wait, and then those that have been met meanwhile. -/
def fillAll : Nat → Maker Unit
  | 0 => refuse
  | fuel + 1 => do
    let s ← get
    if s.waiting.isEmpty then return ()
    else
      set { s with waiting := [] }
      s.waiting.reverse.forM fill
      fillAll fuel

/-- What the root of a document becomes, with all containers that belong to it. -/
def makeAll (root : NodeId) : Maker Part := do
  let part ← make root
  fillAll ((← get).graph.size + 1)
  return part

end Maker

/-- A document whose nodes have all become values or containers. -/
structure Made where
  root : Part
  fillings : Array (Option Filling)

def Made.ofGraph (g : Graph) (root : NodeId) : Except Failure Made := do
  let making : Making :=
    { graph := g
      waiting := []
      parts := Array.replicate g.size none
      fillings := Array.replicate g.size none }
  let (part, s) ← (Maker.makeAll root).run making
  return ⟨part, s.fillings⟩

end TableScript.Yaml
