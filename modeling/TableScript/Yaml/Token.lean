/-!
# Tokens of a document

The marks and scalars that a document is made of. Indentation is made explicit: each block
collection has a start and an end.
-/

namespace TableScript.Yaml

inductive Directive where
  | version (major : Nat)
  | handle (name expansion : String)
  | other

inductive Token where
  | directive (d : Directive)
  | documentStart
  | documentEnd
  | blockSequenceStart
  | blockMappingStart
  | blockEnd
  | flowSequenceStart
  | flowSequenceEnd
  | flowMappingStart
  | flowMappingEnd
  | blockEntry
  | flowEntry
  | key
  | value
  | alias (name : String)
  | anchor (name : String)
  /-- A tag with its handle, or one that is given in full. -/
  | tag (handle : Option String) (suffix : String)
  /-- A scalar; `plain` if it was written without quotes and without a block. -/
  | scalar (text : String) (plain : Bool)

end TableScript.Yaml
