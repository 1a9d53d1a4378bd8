import Attest.Fault
import Attest.Yaml.Node
import Attest.Yaml.Tag.Implicit
import Attest.Yaml.Token

/-!
# Nodes from tokens

Tokens are put together to nodes. An alias is the node of its anchor, with its identity; a text
holds at most one document.

## Main definitions

* `Assembly` — the tokens to come, with the anchors and tag handles that are known
* `takeNode` — a node, by mutual recursion with the entries of collections
* `Node.ofTokens` — the document of a text, if it has one

## Implementation notes

Fuel bounds the depth of the recursion. Every second step takes a token, so that a small multiple
of the number of tokens is enough.
-/

namespace Attest.Yaml

/-- Tokens that are being put together. -/
structure Assembly where
  tokens : List Token
  handles : List (String × String) := []
  anchors : List (String × Node) := []
  /-- The anchors of the collections that are not complete. -/
  openAnchors : List String := []
  nextId : NodeId := 1
  deriving Inhabited

namespace Assembly

/-- A step of the assembly. -/
abbrev Step := StateT Assembly (Except Fault)

def reject {α : Type} : Step α := throw .notYaml

def peek : Step (Option Token) := do return (← get).tokens.head?

def skip : Step Unit := modify fun c => { c with tokens := c.tokens.tail }

def freshId : Step NodeId := do
  let id := (← get).nextId
  modify fun c => { c with nextId := id + 1 }
  return id

/-! ### Tags and anchors -/

/-- What stands before the content of a node. -/
structure Properties where
  anchor : Option String := none
  /-- The full name of the tag. -/
  tag : Option String := none

def fullTag (name : TagName) : Step String := do
  match name.handle with
  | none => return name.suffix
  | some handle =>
    match (← get).handles.lookup handle with
    | some beginning => return beginning ++ name.suffix
    | none => reject

def takeAnchor : Step (Option String) := do
  match ← peek with
  | some (.anchor name) => skip; return some name
  | _ => return none

def takeTag : Step (Option TagName) := do
  match ← peek with
  | some (.tag name) => skip; return some name
  | _ => return none

/-- An anchor and a tag, in either order. -/
def takeProperties : Step Properties := do
  let first ← takeAnchor
  let tag ← takeTag
  let anchor ← if first.isNone && tag.isSome then takeAnchor else pure first
  return { anchor, tag := ← tag.mapM fullTag }

/-- An anchor names one node only. -/
def checkAnchor (anchor : Option String) : Step Unit := do
  if let some name := anchor then
    let c ← get
    if c.openAnchors.contains name || (c.anchors.lookup name).isSome then reject

/-- The anchor of a collection that begins. -/
def openAnchor (anchor : Option String) : Step Unit :=
  modify fun c => { c with openAnchors := anchor.toList ++ c.openAnchors }

/-- The anchor names a node that is complete. -/
def bindAnchor (anchor : Option String) (node : Node) : Step Node := do
  if let some name := anchor then
    modify fun c => { c with
      anchors := (name, node) :: c.anchors, openAnchors := c.openAnchors.filter (· ≠ name) }
  return node

/-- The node of an alias. A collection that holds itself has no value. -/
def aliased (name : String) : Step Node := do
  let c ← get
  match c.anchors.lookup name with
  | some node => return node
  | none =>
    if c.openAnchors.contains name then throw (.outOfRange "Circular reference detected")
    else reject

/-! ### Nodes -/

/-- The tag of a scalar: a plain one without a tag, or one with the tag that means nothing in
particular, has the tag that it looks like. -/
def scalarTag (tag : Option String) (plain : Bool) (text : String) : Tag :=
  match tag with
  | some "!" => Tag.ofText text
  | some uri => .ofUri uri
  | none => if plain then Tag.ofText text else .str

def collectionTag (tag : Option String) (default : Tag) : Tag :=
  match tag with
  | none | some "!" => default
  | some uri => .ofUri uri

/-- The node that nothing was written for. -/
def empty : Node := .scalar .null ""

/-- Where a node stands, as far as that allows forms of it. -/
inductive Place where
  | flow
  | block
  /-- Behind a key, where a sequence need not be indented. -/
  | entry
  deriving DecidableEq, Repr, Inhabited

/-- What was written, unless one of the tokens that end it comes first. -/
def orEmpty (ends : List Token) (written : Step Node) : Step Node := do
  match ← peek with
  | some t => if ends.contains t then return empty else written
  | none => written

/-- Only a node with an anchor or a tag can be without content. -/
def takeEmpty (p : Properties) : Step Node :=
  if p.anchor.isNone && p.tag.isNone then reject
  else bindAnchor p.anchor (.scalar (scalarTag p.tag true "") "")

def sequenceOf (p : Properties) (items : Step (List Node)) : Step Node := do
  let id ← freshId
  openAnchor p.anchor
  bindAnchor p.anchor (.sequence id (collectionTag p.tag .seq) (← items))

def mappingOf (p : Properties) (entries : Step (List (Node × Node))) : Step Node := do
  let id ← freshId
  openAnchor p.anchor
  bindAnchor p.anchor (.mapping id (collectionTag p.tag .map) (← entries))

mutual

def takeNode (place : Place) : Nat → Step Node
  | 0 => reject
  | fuel + 1 => do
    if let some (.alias_ name) ← peek then
      skip
      aliased name
    else
      let p ← takeProperties
      checkAnchor p.anchor
      match ← peek with
      | some (.scalar text plain) =>
        skip
        bindAnchor p.anchor (.scalar (scalarTag p.tag plain text) text)
      | some .flowSequenceStart =>
        skip
        sequenceOf p (flowItems true fuel)
      | some .flowMappingStart =>
        skip
        mappingOf p (flowEntries true fuel)
      | some .blockEntry =>
        if place = .entry then sequenceOf p (looseItems fuel) else takeEmpty p
      | some .blockSequenceStart =>
        if place = .flow then takeEmpty p
        else
          skip
          sequenceOf p (blockItems fuel)
      | some .blockMappingStart =>
        if place = .flow then takeEmpty p
        else
          skip
          mappingOf p (blockEntries fuel)
      | _ => takeEmpty p

def blockItems : Nat → Step (List Node)
  | 0 => reject
  | fuel + 1 => do
    match ← peek with
    | some .blockEntry =>
      skip
      let item ← orEmpty [.blockEntry, .blockEnd] (takeNode .block fuel)
      return item :: (← blockItems fuel)
    | some .blockEnd =>
      skip
      return []
    | _ => reject

/-- The items of a sequence that is not indented; nothing of its own ends it. -/
def looseItems : Nat → Step (List Node)
  | 0 => reject
  | fuel + 1 => do
    match ← peek with
    | some .blockEntry =>
      skip
      let item ← orEmpty [.blockEntry, .key, .value, .blockEnd] (takeNode .block fuel)
      return item :: (← looseItems fuel)
    | _ => return []

def blockEntries : Nat → Step (List (Node × Node))
  | 0 => reject
  | fuel + 1 => do
    match ← peek with
    | some .key =>
      skip
      let key ← orEmpty [.key, .value, .blockEnd] (takeNode .entry fuel)
      let value ← takeValue [.key, .value, .blockEnd] .entry fuel
      return (key, value) :: (← blockEntries fuel)
    | some .blockEnd =>
      skip
      return []
    | _ => reject

/-- The value of an entry, which may be left out with or without its colon. -/
def takeValue (ends : List Token) (place : Place) : Nat → Step Node
  | 0 => reject
  | fuel + 1 => do
    match ← peek with
    | some .value =>
      skip
      orEmpty ends (takeNode place fuel)
    | _ => return empty

def flowItems (first : Bool) : Nat → Step (List Node)
  | 0 => reject
  | fuel + 1 => do
    if (← peek) == some .flowSequenceEnd then
      skip
      return []
    if !first then
      if (← peek) == some .flowEntry then skip else reject
    match ← peek with
    | some .flowSequenceEnd =>
      skip
      return []
    | some .key =>
      skip
      let id ← freshId
      let key ← orEmpty [.value, .flowEntry, .flowSequenceEnd] (takeNode .flow fuel)
      let value ← takeValue [.flowEntry, .flowSequenceEnd] .flow fuel
      return .mapping id .map [(key, value)] :: (← flowItems false fuel)
    | _ =>
      let item ← takeNode .flow fuel
      return item :: (← flowItems false fuel)

def flowEntries (first : Bool) : Nat → Step (List (Node × Node))
  | 0 => reject
  | fuel + 1 => do
    if (← peek) == some .flowMappingEnd then
      skip
      return []
    if !first then
      if (← peek) == some .flowEntry then skip else reject
    match ← peek with
    | some .flowMappingEnd =>
      skip
      return []
    | some .key =>
      skip
      let key ← orEmpty [.value, .flowEntry, .flowMappingEnd] (takeNode .flow fuel)
      let value ← takeValue [.flowEntry, .flowMappingEnd] .flow fuel
      return (key, value) :: (← flowEntries false fuel)
    | _ =>
      let key ← takeNode .flow fuel
      return (key, empty) :: (← flowEntries false fuel)

end

/-! ### Documents -/

/-- The handles that need no directive. -/
def commonHandles : List (String × String) := [("!", "!"), ("!!", Tag.commonBeginning)]

/-- The directives before a document, and the handles that they define. -/
def takeDirectives : Nat → Bool → List (String × String) → Step (List (String × String))
  | 0, _, handles => return handles
  | fuel + 1, versionSeen, handles => do
    match ← peek with
    | some (.directive (.version major)) =>
      if versionSeen || major ≠ 1 then reject
      skip
      takeDirectives fuel true handles
    | some (.directive (.tagHandle handle beginning)) =>
      if (handles.lookup handle).isSome then reject
      skip
      takeDirectives fuel versionSeen ((handle, beginning) :: handles)
    | some (.directive .unknown) =>
      skip
      takeDirectives fuel versionSeen handles
    | _ => return handles

def isDirective : Token → Bool
  | .directive _ => true
  | _ => false

/-- The document behind its mark. -/
def takeMarked (fuel : Nat) : Step Node := do
  let handles ← takeDirectives fuel false []
  if (← peek) ≠ some .documentStart then reject
  skip
  modify fun c => { c with handles := handles ++ commonHandles }
  match ← peek with
  | some t =>
    if isDirective t || [.documentStart, .documentEnd, .streamEnd].contains t then return empty
    else takeNode .block fuel
  | none => reject

/-- Marks of ends, and then the end of the text. -/
def takeEnd : Nat → Step Unit
  | 0 => reject
  | fuel + 1 => do
    match ← peek with
    | some .documentEnd =>
      skip
      takeEnd fuel
    | some .streamEnd => return ()
    | _ => reject

/-- The document of a text, if there is one. -/
def takeDocument (fuel : Nat) : Step (Option Node) := do
  match ← peek with
  | some .streamEnd => return none
  | some t =>
    let node ← if isDirective t || t == .documentStart then takeMarked fuel
      else takeNode .block fuel
    takeEnd fuel
    return some node
  | none => reject

end Assembly

/-- The document that tokens are put together to. -/
def Node.ofTokens (tokens : List Token) : Except Fault (Option Node) :=
  (Assembly.takeDocument (4 * tokens.length + 4)).run'
    { tokens, handles := Assembly.commonHandles }

end Attest.Yaml
