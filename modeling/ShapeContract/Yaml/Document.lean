import ShapeContract.Yaml.Node
import ShapeContract.Yaml.Plain

/-!
# Values of YAML documents

The value of a document in the JSON model. Mappings become objects; their keys are the texts of
scalars, and of a repeated key the last value stays. Scalars in quotes and blocks are strings,
plain ones what they are written like, and a few tags ask for a particular reading.

An alias has the value of the node it names, which is looked up when the whole document has been
read: an anchor takes the number of different names before it, an alias the number that its name
took last, and of all nodes with one number the last one counts.

Collections may be nested to a fixed depth, aliases included, so a node that contains itself is an
error, and aliases may be followed only so often in all.
-/

namespace ShapeContract

namespace Yaml

/-! ### Numbered anchors -/

/-- The names met so far, each with the number it took last. -/
abbrev AnchorNames := List (List Char × Nat)

/-- Give the name of an anchor the number of names before it. -/
def AnchorNames.add (names : AnchorNames) : Option (List Char) → AnchorNames
  | some name => (name, names.length) :: names.filter fun p => p.1 != name
  | none => names

/-- The number that an anchor takes. -/
def AnchorNames.number (names : AnchorNames) (p : Properties (List Char)) : Properties Nat :=
  { anchor := p.anchor.map fun _ => names.length, tag := p.tag }

mutual

/-- Number the anchors of a node, in the order of the document. -/
def numbered (names : AnchorNames) : SourceNode → Option (Node Nat × AnchorNames)
  | .alias name => (names.lookup name).map fun n => (.alias n, names)
  | .scalar p plain text => some (.scalar (names.number p) plain text, names.add p.anchor)
  | .sequence p xs =>
    (numberedEntries (names.add p.anchor) xs).map fun (xs, later) =>
      (.sequence (names.number p) xs, later)
  | .mapping p xs =>
    (numberedPairs (names.add p.anchor) xs).map fun (xs, later) =>
      (.mapping (names.number p) xs, later)

/-- Number the anchors of entries, one after the other. -/
def numberedEntries (names : AnchorNames) :
    List SourceNode → Option (List (Node Nat) × AnchorNames)
  | [] => some ([], names)
  | x :: xs =>
    match numbered names x with
    | some (x, names) =>
      (numberedEntries names xs).map fun (xs, names) => (x :: xs, names)
    | none => none

/-- Number the anchors of keys and values, one after the other. -/
def numberedPairs (names : AnchorNames) :
    List (SourceNode × SourceNode) → Option (List (Node Nat × Node Nat) × AnchorNames)
  | [] => some ([], names)
  | (k, v) :: xs =>
    match numbered names k with
    | some (k, names) =>
      match numbered names v with
      | some (v, names) =>
        (numberedPairs names xs).map fun (xs, names) => ((k, v) :: xs, names)
      | none => none
    | none => none

end

/-- A node under the number of its anchor, if it has one. -/
def Properties.entry (p : Properties Nat) (node : Node Nat) : List (Nat × Node Nat) :=
  match p.anchor with
  | some n => [(n, node)]
  | none => []

mutual

/-- The nodes with anchors, in the order of the document. -/
def anchored : Node Nat → List (Nat × Node Nat)
  | .alias _ => []
  | .scalar p plain text => p.entry (.scalar p plain text)
  | .sequence p xs => p.entry (.sequence p xs) ++ anchoredEntries xs
  | .mapping p xs => p.entry (.mapping p xs) ++ anchoredPairs xs

/-- The nodes with anchors among entries. -/
def anchoredEntries : List (Node Nat) → List (Nat × Node Nat)
  | [] => []
  | x :: xs => anchored x ++ anchoredEntries xs

/-- The nodes with anchors among keys and values. -/
def anchoredPairs : List (Node Nat × Node Nat) → List (Nat × Node Nat)
  | [] => []
  | (k, v) :: xs => anchored k ++ (anchored v ++ anchoredPairs xs)

end

mutual

/-- The size of a node: one for a scalar or an alias, and two for the brackets of a collection. -/
def nodeSize : Node Nat → Nat
  | .alias _ => 1
  | .scalar .. => 1
  | .sequence _ xs => 2 + entriesSize xs
  | .mapping _ xs => 2 + pairsSize xs

/-- The size of entries. -/
def entriesSize : List (Node Nat) → Nat
  | [] => 0
  | x :: xs => nodeSize x + entriesSize xs

/-- The size of keys and values. -/
def pairsSize : List (Node Nat × Node Nat) → Nat
  | [] => 0
  | (k, v) :: xs => nodeSize k + (nodeSize v + pairsSize xs)

end

/-! ### Tags -/

/-- A tag that only its document knows, which no value can have. -/
def isLocalTag (tag : List UInt8) : Bool :=
  match tag with
  | c :: rest => c == 33 && (String.fromUTF8? ⟨rest.toArray⟩).isSome
  | [] => false

/-- The tag with a name among those that every document knows. -/
def standardTag (name : String) : List UInt8 := octets ("tag:yaml.org,2002:" ++ name).toList

/-- The value of a scalar. -/
def scalarValue? (tag : Option (List UInt8)) (plain : Bool) (text : List Char) : Option Json :=
  let word := String.ofList text
  let untagged := if plain then plainValue? text else some (.string word)
  match tag with
  | none => untagged
  | some tag =>
    if isLocalTag tag then none
    else if tag = standardTag "bool" then (boolean? word).map .boolean
    else if tag = standardTag "int" then
      match readInteger text with
      | .value v => some v
      | _ => none
    else if tag = standardTag "float" then readDouble text
    else if tag = standardTag "null" then if isNullWord word then some .null else none
    else if tag.head? = some 33 then untagged
    else some (.string word)

/-- A collection may have a tag, unless it is a local one. -/
def allowsCollection (tag : Option (List UInt8)) : Bool :=
  match tag with
  | some tag => !isLocalTag tag
  | none => true

/-! ### Values -/

/-- The anchored nodes of a document, the last one first, and how often aliases may be followed. -/
structure Anchors where
  nodes : List (Nat × Node Nat)
  limit : Nat

/-- The anchored nodes of a document; aliases may be followed a hundred times its size. -/
def Anchors.ofNode (node : Node Nat) : Anchors := ⟨(anchored node).reverse, 100 * nodeSize node⟩

/-- The node itself, or the one that an alias stands for. The state counts followed aliases. -/
def Anchors.follow (anchors : Anchors) (node : Node Nat) : StateT Nat Option (Node Nat) :=
  match node with
  | .alias n => fun followed =>
    if anchors.limit ≤ followed then none
    else (anchors.nodes.lookup n).map fun node => (node, followed + 1)
  | node => pure node

/-- The text of a key. -/
def Anchors.keyText (anchors : Anchors) (node : Node Nat) : StateT Nat Option String := do
  match ← anchors.follow node with
  | .scalar _ _ text => pure (String.ofList text)
  | _ => failure

/-- The value of a node with collections nested to at most `depth`. -/
def Anchors.value (anchors : Anchors) : (depth : Nat) → Node Nat → StateT Nat Option Json
  | 0, node => do
    match ← anchors.follow node with
    | .scalar p plain text => StateT.lift (scalarValue? p.tag plain text)
    | _ => failure
  | depth + 1, node => do
    match ← anchors.follow node with
    | .scalar p plain text => StateT.lift (scalarValue? p.tag plain text)
    | .sequence p xs =>
      guard (allowsCollection p.tag)
      let values ← xs.mapM (anchors.value depth)
      pure (.array values)
    | .mapping p xs =>
      guard (allowsCollection p.tag)
      let members ← xs.mapM fun (k, v) => do
        let name ← anchors.keyText k
        let value ← anchors.value depth v
        pure (name, value)
      pure (.object (Dict.ofList members))
    | .alias _ => failure

/-- How many collections may be nested in one another. -/
def nestingLimit : Nat := 128

/-- The value of a tree. -/
def valueOfNode? (node : SourceNode) : Option Json :=
  match numbered [] node with
  | some (node, _) => (((Anchors.ofNode node).value nestingLimit node).run 0).map Prod.fst
  | none => none

/-- Read a text as a YAML document. A text without a document stands for null. -/
def read (text : String) : Option Json := do
  let cells ← cells? text.toList
  let tokens ← tokens? cells
  let document ← document? tokens
  match document with
  | some node => valueOfNode? node
  | none => some .null

end Yaml

end ShapeContract
