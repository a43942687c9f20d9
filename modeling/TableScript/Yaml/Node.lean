import TableScript.Yaml.Graph
import TableScript.Yaml.Lexer

/-!
# Reading nodes

The tokens of a document become a graph with one root. An alias is the node with that anchor, which
may still be in the making. Tokens that do not form exactly one document have no root. Where the
tokens end because of a fault, that fault is met when the next token is asked for, and not before.
-/

namespace TableScript.Yaml

structure Properties where
  anchor : Option String := none
  /-- The full name of the tag. -/
  tag : Option String := none

/-- How far the nodes of a document have been read. -/
structure Reading where
  tokens : List Token
  /-- The fault behind the tokens, if it is not simply the end. -/
  ending : Option Failure
  /-- What the handles of tags stand for. -/
  handles : List (String × String) := []
  anchors : List (String × NodeId) := []
  graph : Graph := .empty

/-- A step of reading nodes; it fails on tokens that are out of place. -/
abbrev Reader (α : Type) := StateT Reading (Except Failure) α

namespace Reader

def standardHandles : List (String × String) := [("!", "!"), ("!!", tagSpace)]

/-- The most levels of nodes that are read. -/
def levelLimit : Nat := 487

/-- Refuses a token that is out of place. -/
def refuse {α : Type} : Reader α := throw .malformed

/-- The next token, which stays where it is; there is none at the end of the document. -/
def peek : Reader (Option Token) := do
  let s ← get
  match s.tokens, s.ending with
  | t :: _, _ => return some t
  | [], none => return none
  | [], some e => throw e

def skip : Reader Unit := modify fun s => { s with tokens := s.tokens.tail }

def add (n : Node) : Reader NodeId := do
  let s ← get
  set { s with graph := s.graph.push n }
  return s.graph.size

def addAbsent : Reader NodeId := add .absent

/-- The node of an alias. -/
def aliased (name : String) : Reader NodeId := do
  match (← get).anchors.lookup name with
  | some id => return id
  | none => refuse

def expandTag (handle : Option String) (suffix : String) : Reader String := do
  match handle with
  | none => return suffix
  | some h =>
    match (← get).handles.lookup h with
    | some expansion => return expansion ++ suffix
    | none => refuse

def readAnchor? : Reader (Option String) := do
  match ← peek with
  | some (.anchor name) => skip; return some name
  | _ => return none

/-- Reads a tag, if one comes next: its handle and the rest. -/
def readTag? : Reader (Option (Option String × String)) := do
  match ← peek with
  | some (.tag handle suffix) => skip; return some (handle, suffix)
  | _ => return none

/-- Reads an anchor and a tag, in either order. The tag is looked up when both have been read. -/
def readProperties : Reader Properties := do
  let first ← readAnchor?
  let tag ← readTag?
  let anchor ← if first.isNone && tag.isSome then readAnchor? else pure first
  match tag with
  | none => return ⟨anchor, none⟩
  | some (handle, suffix) => return ⟨anchor, some (← expandTag handle suffix)⟩

/-- Whether a node's type follows from its content. -/
def isImplicit (p : Properties) : Bool := p.tag.all (· == "!")

/-- The tag that is given, or else the type of the content. -/
def tagOr (p : Properties) (tag : Tag) : Tag :=
  match p.tag with
  | none => tag
  | some name => if name == "!" then tag else Tag.ofName name

/-- The type of a scalar. An exclamation mark alone has it resolved as if it were plain. -/
def scalarTag (p : Properties) (text : String) (plain : Bool) : Tag :=
  tagOr p (if plain || p.tag.isSome then Tag.ofPlain text.toList else .text)

/-- Adds a node with its properties. An anchor may be given once only. -/
def addWith (p : Properties) (n : Node) : Reader NodeId := do
  match p.anchor with
  | none => add n
  | some name =>
    if ((← get).anchors.lookup name).isSome then refuse
    else
      let id ← add n
      modify fun s => { s with anchors := (name, id) :: s.anchors }
      return id

def complete (id : NodeId) (content : Content) : Reader NodeId := do
  modify fun s => { s with graph := s.graph.setContent id content }
  return id

def addEmpty (p : Properties) : Reader NodeId := do
  if p.anchor.isNone && p.tag.isNone then refuse
  else addWith p ⟨if isImplicit p then .null else tagOr p .text, .scalar ""⟩

def endsItem (indentless : Bool) : Option Token → Bool
  | some .blockEntry | some .blockEnd => true
  | some .key | some .value => indentless
  | _ => false

def endsBlockPart : Option Token → Bool
  | some .key | some .value | some .blockEnd => true
  | _ => false

def endsFlowPart : Option Token → Bool
  | some .value | some .flowEntry | some .flowSequenceEnd | some .flowMappingEnd => true
  | _ => false

mutual

/-- Reads a node with at most `levels` levels. Only in a block may a block collection begin, and
only as a part of a block mapping may a sequence stand at the indentation of the mapping. -/
def read (block indentless : Bool) (levels : Nat) : Nat → Reader NodeId
  | 0 => refuse
  | fuel + 1 => do
    if levels = 0 then throw .tooDeep
    else
      match ← peek with
      | some (.alias name) => skip; aliased name
      | _ =>
        let p ← readProperties
        match ← peek with
        | some .blockEntry =>
          if indentless then do
            let id ← addWith p ⟨tagOr p .list, .sequence []⟩
            complete id (.sequence (← readEntries true (levels - 1) fuel))
          else addEmpty p
        | some (.scalar text plain) => do
          skip
          addWith p ⟨scalarTag p text plain, .scalar text⟩
        | some .flowSequenceStart => do
          let id ← addWith p ⟨tagOr p .list, .sequence []⟩
          skip
          complete id (.sequence (← readFlowItems true (levels - 1) fuel))
        | some .flowMappingStart => do
          let id ← addWith p ⟨tagOr p .mapping, .mapping []⟩
          skip
          complete id (.mapping (← readFlowEntries true (levels - 1) fuel))
        | some .blockSequenceStart =>
          if block then do
            let id ← addWith p ⟨tagOr p .list, .sequence []⟩
            skip
            complete id (.sequence (← readEntries false (levels - 1) fuel))
          else addEmpty p
        | some .blockMappingStart =>
          if block then do
            let id ← addWith p ⟨tagOr p .mapping, .mapping []⟩
            skip
            complete id (.mapping (← readPairs (levels - 1) fuel))
          else addEmpty p
        | _ => addEmpty p
termination_by structural fuel => fuel

def readEntries (indentless : Bool) (levels : Nat) : Nat → Reader (List NodeId)
  | 0 => refuse
  | fuel + 1 => do
    match ← peek with
    | some .blockEntry => do
      skip
      let next ← peek
      let item ← if endsItem indentless next then addAbsent else read true false levels fuel
      return item :: (← readEntries indentless levels fuel)
    | t =>
      if indentless then return []
      else match t with
        | some .blockEnd => skip; return []
        | _ => refuse
termination_by structural fuel => fuel

def readBlockPart (levels : Nat) : Nat → Reader NodeId
  | 0 => refuse
  | fuel + 1 => do
    let next ← peek
    if endsBlockPart next then addAbsent else read true true levels fuel
termination_by structural fuel => fuel

def readPairs (levels : Nat) : Nat → Reader (List (NodeId × NodeId))
  | 0 => refuse
  | fuel + 1 => do
    match ← peek with
    | some .key => do
      skip
      let key ← readBlockPart levels fuel
      let value ← match ← peek with
        | some .value => do skip; readBlockPart levels fuel
        | _ => addAbsent
      return (key, value) :: (← readPairs levels fuel)
    | some .blockEnd => skip; return []
    | _ => refuse
termination_by structural fuel => fuel

def readFlowPart (levels : Nat) : Nat → Reader NodeId
  | 0 => refuse
  | fuel + 1 => do
    let next ← peek
    if endsFlowPart next then addAbsent else read false false levels fuel
termination_by structural fuel => fuel

def readFlowValue (levels : Nat) : Nat → Reader NodeId
  | 0 => refuse
  | fuel + 1 => do
    match ← peek with
    | some .value => do skip; readFlowPart levels fuel
    | _ => addAbsent
termination_by structural fuel => fuel

/-- Reads the items of a flow sequence. An item that is a key with a value is a mapping. -/
def readFlowItems (first : Bool) (levels : Nat) : Nat → Reader (List NodeId)
  | 0 => refuse
  | fuel + 1 => do
    match ← peek with
    | some .flowSequenceEnd => skip; return []
    | t =>
      match first, t with
      | false, some .flowEntry => skip
      | false, _ => refuse
      | true, _ => pure ()
      match ← peek with
      | some .key => do
        if levels = 0 then throw .tooDeep
        else
          let id ← add ⟨.mapping, .mapping []⟩
          skip
          let key ← readFlowPart (levels - 1) fuel
          let value ← readFlowValue (levels - 1) fuel
          let item ← complete id (.mapping [(key, value)])
          return item :: (← readFlowItems false levels fuel)
      | some .flowSequenceEnd => skip; return []
      | _ => do
        let item ← read false false levels fuel
        return item :: (← readFlowItems false levels fuel)
termination_by structural fuel => fuel

/-- Reads the entries of a flow mapping. A node alone is a key without a value. -/
def readFlowEntries (first : Bool) (levels : Nat) : Nat → Reader (List (NodeId × NodeId))
  | 0 => refuse
  | fuel + 1 => do
    match ← peek with
    | some .flowMappingEnd => skip; return []
    | t =>
      match first, t with
      | false, some .flowEntry => skip
      | false, _ => refuse
      | true, _ => pure ()
      match ← peek with
      | some .key => do
        skip
        let key ← readFlowPart levels fuel
        let value ← readFlowValue levels fuel
        return (key, value) :: (← readFlowEntries false levels fuel)
      | some .flowMappingEnd => skip; return []
      | _ => do
        let key ← read false false levels fuel
        let value ← addAbsent
        return (key, value) :: (← readFlowEntries false levels fuel)
termination_by structural fuel => fuel

end

def skipEnds : Nat → Reader Unit
  | 0 => refuse
  | fuel + 1 => do
    match ← peek with
    | some .documentEnd => skip; skipEnds fuel
    | _ => return ()

/-- Reads the directives before a document. Its version is one of the first; a version and each
handle are declared once at most. -/
def readDirectives (version : Bool) (declared : List (String × String)) : Nat → Reader Unit
  | 0 => refuse
  | fuel + 1 => do
    match ← peek with
    | some (.directive d) => do
      skip
      match d with
      | .version major =>
        if version || major != 1 then refuse else readDirectives true declared fuel
      | .handle name expansion =>
        if (declared.lookup name).isSome then refuse
        else readDirectives version ((name, expansion) :: declared) fuel
      | .other => readDirectives version declared fuel
    | _ => modify fun s => { s with handles := declared ++ standardHandles }

def endsDocument : Option Token → Bool
  | none | some (.directive _) | some .documentStart | some .documentEnd => true
  | _ => false

def readRoot (fuel : Nat) : Reader (Option NodeId) := do
  match ← peek with
  | none => return none
  | some (.directive _) | some .documentStart => do
    readDirectives false [] fuel
    match ← peek with
    | some .documentStart => do
      skip
      let next ← peek
      let root ← if endsDocument next then addAbsent else read true false levelLimit fuel
      return some root
    | _ => refuse
  | _ => do
    modify fun s => { s with handles := standardHandles }
    let root ← read true false levelLimit fuel
    return some root

/-- Reads the end of the tokens. If there is a second document, the lines before it are read
first. -/
def readEnd (fuel : Nat) : Reader Unit := do
  skipEnds fuel
  match ← peek with
  | none => return ()
  | some _ => do
    readDirectives false [] fuel
    let _ ← peek
    refuse

/-- Reads the only document. -/
def readDocument (fuel : Nat) : Reader (Option NodeId) := do
  let root ← readRoot fuel
  if root.isSome then readEnd fuel
  return root

end Reader

/-- A document: a graph of nodes, one of which is the root. Nothing at all is a document without a
root. -/
structure Document where
  graph : Graph
  root : Option NodeId

def Document.ofTokens (ts : Tokens) : Except Failure Document := do
  let reading : Reading := { tokens := ts.tokens, ending := ts.ending }
  let (root, s) ← (Reader.readDocument (4 * ts.tokens.length + 4)).run reading
  return ⟨s.graph, root⟩

end TableScript.Yaml
