import Attest.Value.Basic
import Attest.Yaml.Tag

/-!
# Nodes

What a YAML document is made of before values are made of it: scalars, sequences and mappings, each
with a tag. A node that is written once and repeated by aliases is one node: its identity is kept.

## Main definitions

* `Node` — the nodes
-/

namespace Attest.Yaml

/-- A node of a document. -/
inductive Node where
  | scalar (tag : Tag) (text : String)
  | sequence (id : NodeId) (tag : Tag) (items : List Node)
  | mapping (id : NodeId) (tag : Tag) (entries : List (Node × Node))
  deriving Repr, Inhabited

namespace Node

def tag : Node → Tag
  | .scalar tag _ => tag
  | .sequence _ tag _ => tag
  | .mapping _ tag _ => tag

end Node

end Attest.Yaml
