import TaskForest.Yaml.Layout

/-!
From tokens to the one document of a text. A node is a scalar, a sequence, a mapping, or an alias of a
node with an anchor. Anchors have numbers: a name gets the number of different names before it, so a name
that is used again shares its new number with the next new name, and of the nodes with one number the
last is meant.
-/

namespace TaskForest
namespace Yaml

inductive Node where
  | scalar (anchor : Option Nat) (tag : Option (List Char)) (style : Style) (text : List Char)
  | sequence (anchor : Option Nat) (items : List Node)
  | mapping (anchor : Option Nat) (entries : List (Node × Node))
  | aliasOf (number : Nat)

instance : Inhabited Node := ⟨.aliasOf 0⟩

namespace Node

def blank : Node := scalar none none .plain []

def anchor : Node → Option Nat
  | scalar a _ _ _ | sequence a _ | mapping a _ => a
  | aliasOf _ => none

mutual

/-- The node and those in it, each before those inside it. -/
def within : Node → List Node
  | scalar a t s x => [scalar a t s x]
  | aliasOf n => [aliasOf n]
  | sequence a items => sequence a items :: withinItems items
  | mapping a entries => mapping a entries :: withinEntries entries

def withinItems : List Node → List Node
  | [] => []
  | item :: rest => item.within ++ withinItems rest

def withinEntries : List (Node × Node) → List Node
  | [] => []
  | (key, value) :: rest => key.within ++ value.within ++ withinEntries rest

end

end Node

/-- What is left of the tokens, and the anchors and tag handles known so far. -/
structure Composing where
  tokens : List Token
  anchors : List (List Char × Nat) := []
  handles : List (List Char × List Char) := []

/-- A part of a document. It fails where the tokens are not in order. -/
abbrev Compose := StateT Composing Option

namespace Compose

def peek : Compose (Option Token) := do
  pure (← get).tokens.head?

def skip : Compose Unit :=
  modify fun s => { s with tokens := s.tokens.drop 1 }

/-- Skips the token if it is the next one; says whether it was. -/
def skipIf (t : Token) : Compose Bool := do
  if (← peek) = some t then
    skip
    pure true
  else pure false

def require (t : Token) : Compose Unit := do
  unless ← skipIf t do failure

def nextIsOneOf (ts : List Token) : Compose Bool := do
  match ← peek with
  | some t => pure (ts.contains t)
  | none => pure true

def numberOf (name : List Char) : Compose Nat := do
  match (← get).anchors.lookup name with
  | some n => pure n
  | none => failure

def declare (name : List Char) : Compose Nat := do
  let known := (← get).anchors
  let n := known.length
  modify fun s => { s with anchors := (name, n) :: known.filter fun a => a.1 ≠ name }
  pure n

def resolve (t : Tag) : Compose (List Char) := do
  if t.handle.isEmpty then pure t.suffix
  else
    match (← get).handles.lookup t.handle with
    | some name => pure (name ++ t.suffix)
    | none => failure

/-- An anchor and a tag, in either order; each may be missing. -/
def properties : Compose (Option Nat × Option (List Char)) := do
  match ← peek with
  | some (.anchor name) => do
    skip
    match ← peek with
    | some (.tag t) => do
      skip
      let tag ← resolve t
      pure (some (← declare name), some tag)
    | _ => pure (some (← declare name), none)
  | some (.tag t) => do
    skip
    match ← peek with
    | some (.anchor name) => do
      skip
      let tag ← resolve t
      pure (some (← declare name), some tag)
    | _ => pure (none, some (← resolve t))
  | _ => pure (none, none)

mutual

/-- A node. Within brackets there are no blocks, and only the values and keys of a mapping may be
sequences that are not indented. -/
def node (block indentless : Bool) : Nat → Compose Node
  | 0 => failure
  | fuel + 1 => do
    match ← peek with
    | some (.aliasOf name) => do
      skip
      pure (.aliasOf (← numberOf name))
    | _ => do
      let (anchor, tag) ← properties
      match ← peek with
      | some .blockEntry =>
        if indentless then .sequence anchor <$> indentlessItems fuel
        else bare anchor tag
      | some (.scalar style text) => do
        skip
        pure (.scalar anchor tag style text)
      | some .flowSequenceStart => do
        skip
        .sequence anchor <$> flowItems true fuel
      | some .flowMappingStart => do
        skip
        .mapping anchor <$> flowEntries true fuel
      | some .blockSequenceStart =>
        if block then do
          skip
          .sequence anchor <$> blockItems fuel
        else bare anchor tag
      | some .blockMappingStart =>
        if block then do
          skip
          .mapping anchor <$> blockEntries fuel
        else bare anchor tag
      | _ => bare anchor tag

def bare (anchor : Option Nat) (tag : Option (List Char)) : Compose Node :=
  if anchor.isSome || tag.isSome then pure (.scalar anchor tag .plain []) else failure

/-- A node, or nothing written if one of these tokens comes first. -/
def nodeUnless (stops : List Token) (block indentless : Bool) : Nat → Compose Node
  | 0 => failure
  | fuel + 1 => do
    if ← nextIsOneOf stops then pure .blank else node block indentless fuel

def blockItems : Nat → Compose (List Node)
  | 0 => failure
  | fuel + 1 => do
    if ← skipIf .blockEntry then
      let item ← nodeUnless [.blockEntry, .blockEnd] true false fuel
      let rest ← blockItems fuel
      pure (item :: rest)
    else
      require .blockEnd
      pure []

def indentlessItems : Nat → Compose (List Node)
  | 0 => failure
  | fuel + 1 => do
    if ← skipIf .blockEntry then
      let item ← nodeUnless [.blockEntry, .key, .value, .blockEnd] true false fuel
      let rest ← indentlessItems fuel
      pure (item :: rest)
    else pure []

def blockEntries : Nat → Compose (List (Node × Node))
  | 0 => failure
  | fuel + 1 => do
    if ← skipIf .key then
      let key ← nodeUnless [.key, .value, .blockEnd] true true fuel
      let value ←
        if ← skipIf .value then nodeUnless [.key, .value, .blockEnd] true true fuel
        else pure .blank
      let rest ← blockEntries fuel
      pure ((key, value) :: rest)
    else
      require .blockEnd
      pure []

/-- The items of a sequence in brackets; a comma may follow the last one. -/
def flowItems (first : Bool) : Nat → Compose (List Node)
  | 0 => failure
  | fuel + 1 => do
    if ← skipIf .flowSequenceEnd then pure []
    else
      unless first do require .flowEntry
      if ← skipIf .flowSequenceEnd then pure []
      else
        let item ← if ← skipIf .key then flowPair fuel else node false false fuel
        let rest ← flowItems false fuel
        pure (item :: rest)

/-- A single pair as an item of a sequence. Without a key, the token that stands in its place is not
taken for anything else. -/
def flowPair : Nat → Compose Node
  | 0 => failure
  | fuel + 1 => do
    let key ←
      if ← nextIsOneOf [.value, .flowEntry, .flowSequenceEnd] then do
        skip
        pure .blank
      else node false false fuel
    let value ←
      if ← skipIf .value then nodeUnless [.flowEntry, .flowSequenceEnd] false false fuel
      else pure .blank
    pure (.mapping none [(key, value)])

def flowEntries (first : Bool) : Nat → Compose (List (Node × Node))
  | 0 => failure
  | fuel + 1 => do
    if ← skipIf .flowMappingEnd then pure []
    else
      unless first do require .flowEntry
      if ← skipIf .flowMappingEnd then pure []
      else
        let entry ← flowEntry fuel
        let rest ← flowEntries false fuel
        pure (entry :: rest)

def flowEntry : Nat → Compose (Node × Node)
  | 0 => failure
  | fuel + 1 => do
    if ← skipIf .key then
      let key ← nodeUnless [.value, .flowEntry, .flowMappingEnd] false false fuel
      let value ←
        if ← skipIf .value then nodeUnless [.flowEntry, .flowMappingEnd] false false fuel
        else pure .blank
      pure (key, value)
    else
      let key ← node false false fuel
      pure (key, .blank)

end

/-- The directives in front of a document; a version is 1.1 or 1.2 and given once, as is each handle. -/
def directives : Nat → (versioned : Bool) → Compose Bool
  | 0, versioned => pure versioned
  | fuel + 1, versioned => do
    match ← peek with
    | some (.version major minor) =>
      if versioned || major ≠ 1 || (minor ≠ 1 && minor ≠ 2) then failure
      else do
        skip
        directives fuel true
    | some (.tagHandle handle name) => do
      if ((← get).handles.lookup handle).isSome then failure
      modify fun s => { s with handles := (handle, name) :: s.handles }
      skip
      directives fuel versioned
    | _ => pure versioned

/-- The handles that need no directive; a directive may give them another meaning. -/
def standardHandles : List (List Char × List Char) :=
  [("!".toList, "!".toList), ("!!".toList, "tag:yaml.org,2002:".toList)]

def skipEnds : Nat → Compose Unit
  | 0 => pure ()
  | fuel + 1 => do
    if ← skipIf .documentEnd then skipEnds fuel

/-- The document, with nothing behind it; `none` if there is no document at all. -/
def document (fuel : Nat) : Compose (Option Node) := do
  match ← peek with
  | none => pure none
  | some first => do
    let marked := first matches .version .. | .tagHandle .. | .documentStart
    let _ ← directives fuel false
    if marked then require .documentStart
    modify fun s => { s with handles := s.handles ++ standardHandles }
    let isVersion := (← peek).any fun t => t matches .version .. | .tagHandle ..
    let root ←
      if marked && (isVersion || (← nextIsOneOf [.documentStart, .documentEnd])) then pure .blank
      else node true false fuel
    skipEnds fuel
    if (← peek).isSome then failure
    pure (some root)

end Compose

structure Document where
  root : Option Node

namespace Document

def anchored (d : Document) (number : Nat) : Option Node :=
  d.root.bind fun root => root.within.reverse.find? fun n => n.anchor = some number

end Document

/-- Reads a text as a stream of at most one document. -/
def parse? (text : String) : Option Document := do
  let tokens ← tokens? text
  let (root, _) ← Compose.document (4 * tokens.length + 8) { tokens := tokens }
  pure ⟨root⟩

end Yaml
end TaskForest
