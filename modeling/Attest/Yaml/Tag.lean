/-!
# Tags

A tag says what a node stands for. Only the common ones have a meaning here.

## Main definitions

* `Tag` — the tags that have a meaning
* `Tag.ofUri` — the tag with a full name
-/

namespace Attest.Yaml

/-- The tags that have a meaning. -/
inductive Tag where
  | null
  | bool
  | int
  | float
  | binary
  | timestamp
  | str
  | seq
  | map
  | set
  | orderedMap
  | pairs
  /-- The key whose mappings are taken over. -/
  | merge
  /-- The key of a mapping that stands for a single value. -/
  | value
  | unknown
  deriving DecidableEq, Repr, Inhabited

namespace Tag

/-- What the common tags begin with. -/
def commonBeginning : String := "tag:yaml.org,2002:"

def names : List (String × Tag) :=
  [("null", .null), ("bool", .bool), ("int", .int), ("float", .float), ("binary", .binary),
    ("timestamp", .timestamp), ("str", .str), ("seq", .seq), ("map", .map), ("set", .set),
    ("omap", .orderedMap), ("pairs", .pairs), ("merge", .merge), ("value", .value)]

/-- The tag with a full name. -/
def ofUri (uri : String) : Tag :=
  ((names.find? fun (name, _) => commonBeginning ++ name == uri).map Prod.snd).getD .unknown

end Tag

end Attest.Yaml
