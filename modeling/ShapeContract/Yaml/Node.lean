import ShapeContract.Yaml.TokenStream

/-!
# The tree of a document

The tokens of a document make a tree of scalars, sequences, mappings and aliases, in which every
node may have an anchor and a tag. Where a key, a value or an entry is left out, an empty plain
scalar stands in its place. A text holds at most one document; one without any content has no tree.

The mutual functions carry a bound on the number of nested calls. Of any four calls in a row one
consumes a token, so four times the number of tokens is enough.
-/

namespace ShapeContract

namespace Yaml

/-- The anchor and the tag of a node. Anchors are named by the elements of `ν`. -/
structure Properties (ν : Type) where
  anchor : Option ν := none
  tag : Option (List UInt8) := none

/-- A node of a document. Anchors are named by the elements of `ν`. -/
inductive Node (ν : Type)
  | alias (name : ν)
  | scalar (properties : Properties ν) (plain : Bool) (text : List Char)
  | sequence (properties : Properties ν) (entries : List (Node ν))
  | mapping (properties : Properties ν) (entries : List (Node ν × Node ν))

/-- A node as it is written, with anchors named by words. -/
abbrev SourceNode := Node (List Char)

/-- The node of something left out. -/
def Node.empty : SourceNode := .scalar {} true []

/-- The handles of tags and the beginnings they stand for. -/
abbrev Handles := List (List Char × List UInt8)

/-- The tag that a handle and a suffix make. A tag without handle is its suffix. -/
def Handles.resolve? (handles : Handles) (handle : List Char) (suffix : List UInt8) :
    Option (List UInt8) :=
  if handle.isEmpty then some suffix
  else (handles.lookup handle).map fun start => start ++ suffix

/-- Read the properties at the front, an anchor and a tag in either order. -/
def readProperties (handles : Handles) : List Token → Option (Properties (List Char) × List Token)
  | .anchor name :: .tag handle suffix :: ts =>
    (handles.resolve? handle suffix).map fun tag => ({ anchor := some name, tag := some tag }, ts)
  | .tag handle suffix :: .anchor name :: ts =>
    (handles.resolve? handle suffix).map fun tag => ({ anchor := some name, tag := some tag }, ts)
  | .anchor name :: ts => some ({ anchor := some name }, ts)
  | .tag handle suffix :: ts =>
    (handles.resolve? handle suffix).map fun tag => ({ tag := some tag }, ts)
  | ts => some ({}, ts)

/-- The next token is one of some. -/
def nextIn (stops : List Token) (ts : List Token) : Bool :=
  match ts with
  | t :: _ => stops.contains t
  | [] => false

mutual

/-- A node. `block` allows a collection that is shown by its indentation, `entries` one whose
entries stand as far to the left as the key before it. -/
def readNode (handles : Handles) :
    (fuel : Nat) → (block entries : Bool) → List Token → Option (SourceNode × List Token)
  | 0, _, _, _ => none
  | _ + 1, _, _, .alias name :: ts => some (.alias name, ts)
  | fuel + 1, block, entries, ts =>
    match readProperties handles ts with
    | none => none
    | some (p, ts) =>
      match ts with
      | .scalar plain text :: ts => some (.scalar p plain text, ts)
      | .flowSequenceStart :: ts =>
        (readFlowSequence handles fuel true ts).map fun (xs, ts) => (.sequence p xs, ts)
      | .flowMappingStart :: ts =>
        (readFlowMapping handles fuel true ts).map fun (xs, ts) => (.mapping p xs, ts)
      | .blockEntry :: rest =>
        if entries then
          (readEntries handles fuel (.blockEntry :: rest)).map fun (xs, ts) => (.sequence p xs, ts)
        else if p.anchor.isSome || p.tag.isSome then some (.scalar p true [], ts)
        else none
      | .blockSequenceStart :: rest =>
        if block then
          (readBlockSequence handles fuel rest).map fun (xs, ts) => (.sequence p xs, ts)
        else if p.anchor.isSome || p.tag.isSome then some (.scalar p true [], ts)
        else none
      | .blockMappingStart :: rest =>
        if block then
          (readBlockMapping handles fuel rest).map fun (xs, ts) => (.mapping p xs, ts)
        else if p.anchor.isSome || p.tag.isSome then some (.scalar p true [], ts)
        else none
      | _ => if p.anchor.isSome || p.tag.isSome then some (.scalar p true [], ts) else none

/-- A node, or an empty one before a token that cannot begin a node there. -/
def readNodeUnless (handles : Handles) :
    (fuel : Nat) → (stops : List Token) → (block entries : Bool) → List Token →
      Option (SourceNode × List Token)
  | 0, _, _, _, _ => none
  | fuel + 1, stops, block, entries, ts =>
    if nextIn stops ts then some (.empty, ts) else readNode handles fuel block entries ts

/-- The entries of a block sequence and its end. -/
def readBlockSequence (handles : Handles) :
    (fuel : Nat) → List Token → Option (List SourceNode × List Token)
  | 0, _ => none
  | fuel + 1, ts =>
    match ts with
    | .blockEnd :: ts => some ([], ts)
    | .blockEntry :: ts => do
      let (x, ts) ← readNodeUnless handles fuel [.blockEntry, .blockEnd] true false ts
      let (xs, ts) ← readBlockSequence handles fuel ts
      some (x :: xs, ts)
    | _ => none

/-- The entries of a sequence that has no end of its own. -/
def readEntries (handles : Handles) :
    (fuel : Nat) → List Token → Option (List SourceNode × List Token)
  | 0, _ => none
  | fuel + 1, ts =>
    match ts with
    | .blockEntry :: ts => do
      let (x, ts) ← readNodeUnless handles fuel [.blockEntry, .key, .value, .blockEnd] true false ts
      let (xs, ts) ← readEntries handles fuel ts
      some (x :: xs, ts)
    | _ => some ([], ts)

/-- The entries of a block mapping and its end. -/
def readBlockMapping (handles : Handles) :
    (fuel : Nat) → List Token → Option (List (SourceNode × SourceNode) × List Token)
  | 0, _ => none
  | fuel + 1, ts =>
    match ts with
    | .blockEnd :: ts => some ([], ts)
    | .key :: ts => do
      let (k, ts) ← readNodeUnless handles fuel [.key, .value, .blockEnd] true true ts
      let (v, ts) ← readValueAfter handles fuel [.key, .value, .blockEnd] true ts
      let (xs, ts) ← readBlockMapping handles fuel ts
      some ((k, v) :: xs, ts)
    | _ => none

/-- The value after a key, an empty one if no colon follows. -/
def readValueAfter (handles : Handles) :
    (fuel : Nat) → (stops : List Token) → (block : Bool) → List Token →
      Option (SourceNode × List Token)
  | 0, _, _, _ => none
  | fuel + 1, stops, block, ts =>
    match ts with
    | .value :: ts => readNodeUnless handles fuel stops block block ts
    | _ => some (.empty, ts)

/-- The entries of a sequence in brackets and its end. An entry with a key is a mapping of one
entry; when its key is left out, the token in place of the key is passed over. -/
def readFlowSequence (handles : Handles) :
    (fuel : Nat) → (first : Bool) → List Token → Option (List SourceNode × List Token)
  | 0, _, _ => none
  | fuel + 1, first, ts =>
    let entries : Option (List Token) :=
      if first then some ts
      else
        match ts with
        | .flowEntry :: ts => some ts
        | .flowSequenceEnd :: ts => some (.flowSequenceEnd :: ts)
        | _ => none
    match entries with
    | none => none
    | some (.flowSequenceEnd :: ts) => some ([], ts)
    | some (.key :: ts) => do
      let (k, ts) ←
        if nextIn [.value, .flowEntry, .flowSequenceEnd] ts then some (Node.empty, ts.drop 1)
        else readNode handles fuel false false ts
      let (v, ts) ← readValueAfter handles fuel [.flowEntry, .flowSequenceEnd] false ts
      let (xs, ts) ← readFlowSequence handles fuel false ts
      some (.mapping {} [(k, v)] :: xs, ts)
    | some ts => do
      let (x, ts) ← readNode handles fuel false false ts
      let (xs, ts) ← readFlowSequence handles fuel false ts
      some (x :: xs, ts)

/-- The entries of a mapping in braces and its end. -/
def readFlowMapping (handles : Handles) :
    (fuel : Nat) → (first : Bool) → List Token → Option (List (SourceNode × SourceNode) × List Token)
  | 0, _, _ => none
  | fuel + 1, first, ts =>
    let entries : Option (List Token) :=
      if first then some ts
      else
        match ts with
        | .flowEntry :: ts => some ts
        | .flowMappingEnd :: ts => some (.flowMappingEnd :: ts)
        | _ => none
    match entries with
    | none => none
    | some (.flowMappingEnd :: ts) => some ([], ts)
    | some (.key :: ts) => do
      let (k, ts) ←
        readNodeUnless handles fuel [.value, .flowEntry, .flowMappingEnd] false false ts
      let (v, ts) ← readValueAfter handles fuel [.flowEntry, .flowMappingEnd] false ts
      let (xs, ts) ← readFlowMapping handles fuel false ts
      some ((k, v) :: xs, ts)
    | some ts => do
      let (k, ts) ← readNode handles fuel false false ts
      let (xs, ts) ← readFlowMapping handles fuel false ts
      some ((k, .empty) :: xs, ts)

end

/-! ### Documents -/

/-- The handles that every document has. -/
def Handles.standard : Handles :=
  [(['!'], octets ['!']), (['!', '!'], octets "tag:yaml.org,2002:".toList)]

/-- Read the directives at the front: at most one version, which has to be 1.1 or 1.2, and handles
that are not declared twice. A declared handle goes before a standard one of the same name. -/
def readDirectives (version : Bool) (declared : Handles) :
    List Token → Option (Handles × List Token)
  | .versionDirective major minor :: ts =>
    if version || major != 1 || (minor != 1 && minor != 2) then none
    else readDirectives true declared ts
  | .tagDirective handle start :: ts =>
    if (declared.lookup handle).isSome then none
    else readDirectives version (declared ++ [(handle, start)]) ts
  | ts => some (declared ++ Handles.standard, ts)

/-- The tokens that show that a document has no content. -/
def endsDocument : List Token → Bool
  | .versionDirective .. :: _ => true
  | .tagDirective .. :: _ => true
  | .documentStart :: _ => true
  | .documentEnd :: _ => true
  | .streamEnd :: _ => true
  | _ => false

/-- Nothing is left but marks of the end. -/
def isFinished : List Token → Bool
  | .documentEnd :: ts => isFinished ts
  | [.streamEnd] => true
  | _ => false

/-- The only document among the tokens; the inner result is missing when there is no document. -/
def document? (ts : List Token) : Option (Option SourceNode) :=
  let fuel := 4 * ts.length + 4
  let finish : Option (SourceNode × List Token) → Option (Option SourceNode)
    | some (node, rest) => if isFinished rest then some (some node) else none
    | none => none
  match ts with
  | [.streamEnd] => some none
  | .versionDirective .. :: _ | .tagDirective .. :: _ | .documentStart :: _ =>
    match readDirectives false [] ts with
    | some (handles, .documentStart :: rest) =>
      if endsDocument rest then finish (some (.empty, rest))
      else finish (readNode handles fuel true false rest)
    | _ => none
  | ts => finish (readNode Handles.standard fuel true false ts)

end Yaml

end ShapeContract
