import TableScript.Yaml.Tag

/-!
# Graphs of nodes

A document is a graph: a node is a scalar, a sequence or a mapping, and the parts of the last two
are nodes again, known by their numbers. An alias leads to a node that has been met before, so one
node may be a part of several others, and even of itself.
-/

namespace TableScript.Yaml

abbrev NodeId := Nat

/-- What a node consists of. -/
inductive Content where
  | scalar (text : String)
  | sequence (items : List NodeId)
  | mapping (entries : List (NodeId × NodeId))

structure Node where
  tag : Tag
  content : Content

def Node.absent : Node := ⟨.null, .scalar ""⟩

structure Graph where
  nodes : Array Node

namespace Graph

def empty : Graph := ⟨#[]⟩

def size (g : Graph) : Nat := g.nodes.size

def node (g : Graph) (id : NodeId) : Node := g.nodes[id]?.getD .absent

def push (g : Graph) (n : Node) : Graph := ⟨g.nodes.push n⟩

def setContent (g : Graph) (id : NodeId) (content : Content) : Graph :=
  ⟨g.nodes.modify id fun n => { n with content }⟩

def setTag (g : Graph) (id : NodeId) (tag : Tag) : Graph :=
  ⟨g.nodes.modify id fun n => { n with tag }⟩

def entries? (g : Graph) (id : NodeId) : Option (List (NodeId × NodeId)) :=
  match (g.node id).content with
  | .mapping entries => some entries
  | _ => none

def entryCount (g : Graph) : Nat :=
  g.nodes.foldl (fun n x =>
    match x.content with
    | .mapping entries => n + entries.length
    | _ => n) 0

end Graph

end TableScript.Yaml
