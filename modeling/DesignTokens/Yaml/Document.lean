import DesignTokens.OrderedMap
import DesignTokens.Yaml.Plain
import DesignTokens.Yaml.Token

/-!
# Yaml/Document — reading a document

A document is one node: a scalar, a sequence or a mapping, each perhaps with a tag and an anchor.
Nodes are made in the order of the text and **tokens are asked for one by one**, so that of two
faults the one that comes first in this order is told.  A text holds one document at most.

* `Document.ofSupply?` — the document of a text, if it holds one.
-/

namespace DesignTokens.Yaml

/-- A text that is being read, with the nodes made so far. -/
structure Source where
  scan : Scan
  nodes : Nodes
  /-- The nodes that names stand for. -/
  anchors : List (String × Nat)
  /-- What the handles of tags stand for. -/
  handles : List (String × String)

namespace Source

/-- The next token. -/
def peek (src : Source) : Except Fault (Token × Source) := do
  let (t, scan) ← src.scan.peek
  return (t, { src with scan })

/-- Takes the next token. -/
def drop (src : Source) : Source := { src with scan := src.scan.drop }

/-- Takes the next token, and tells the one after it. -/
def advance (src : Source) : Except Fault (Token × Source) := src.drop.peek

/-- Makes a node. -/
def make (src : Source) (n : Node) : Nat × Source :=
  (src.nodes.size, { src with nodes := src.nodes.push n })

/-- Makes a node that nothing is written for. -/
def absent (src : Source) : Nat × Source := src.make (.scalar .null "")

/-- Finishes a node that was made before its parts. -/
def finish (src : Source) (place : Nat) (n : Node) : Nat × Source :=
  (place, { src with nodes := src.nodes.setIfInBounds place n })

/-- Makes a node that an anchor may name. -/
def name (src : Source) (anchor : Option String) (n : Node) : Except Fault (Nat × Source) :=
  match anchor with
  | none => .ok (src.make n)
  | some a =>
    if src.anchors.any (·.1 == a) then problem (.duplicateAnchor a)
    else
      let (place, src) := src.make n
      .ok (place, { src with anchors := (a, place) :: src.anchors })

/-! ## Properties of nodes -/

/-- The name of the tag that a token writes. -/
def tagName (src : Source) (handle : Option String) (suffix : String) : Except Fault String :=
  match handle with
  | none => .ok suffix
  | some h =>
    match Entries.get? h src.handles with
    | some stem => .ok (stem ++ suffix)
    | none => problem (.undefinedHandle h)

/-- What may come before a node. -/
structure Properties where
  anchor : Option String
  /-- The name of its tag. -/
  tag : Option String

/-- The tag of a node of such properties, where that is not told by its form. -/
def Properties.tagOr (p : Properties) (byForm : Tag) : Tag :=
  match p.tag with
  | some name => if name = "!" then byForm else .ofName name
  | none => byForm

/-- The properties in front of a node, an anchor and a tag in either order, and the token behind
them. -/
def properties (src : Source) : Except Fault (Properties × Token × Source) := do
  let (t, src) ← src.peek
  match t with
  | .anchor a =>
    match ← src.advance with
    | (.tag h s, src) =>
      let src := src.drop
      let name ← src.tagName h s
      let (t, src) ← src.peek
      return (⟨some a, some name⟩, t, src)
    | (t, src) => return (⟨some a, none⟩, t, src)
  | .tag h s =>
    match ← src.advance with
    | (.anchor a, src) =>
      let src := src.drop
      let name ← src.tagName h s
      let (t, src) ← src.peek
      return (⟨some a, some name⟩, t, src)
    | (t, src) =>
      let name ← src.tagName h s
      return (⟨none, some name⟩, t, src)
  | t => return (⟨none, none⟩, t, src)

/-- A scalar; without a tag of its own, only a plain one may be anything but text. -/
def scalar (src : Source) (p : Properties) (text : String) (style : ScalarStyle) :
    Except Fault (Nat × Source) :=
  let byForm := if style = .plain ∨ p.tag.isSome then Plain.typeOf text else .text
  let tag := p.tagOr byForm
  src.name p.anchor (.scalar (if style = .halved ∧ tag = .text then .halfText else tag) text)

/-- A node of which only the properties are written. -/
def empty (src : Source) (p : Properties) : Except Fault (Nat × Source) :=
  if p.anchor.isNone && p.tag.isNone then problem (.expected "the node content")
  else src.scalar p "" .plain

/-! ## Nodes -/

mutual

/-- A node; in a block it may be a block collection, and behind a key a sequence that is not
indented.  There is room for so many nodes in one another. -/
def read (inBlock afterKey : Bool) : Nat → Nat → Source → Except Fault (Nat × Source)
  | 0, _, _ => problem (.expected "the node content")
  | _ + 1, 0, _ => .error (.value .tooDeep)
  | fuel + 1, room + 1, src => do
    let (t, src) ← src.peek
    if let .alias a := t then
      let src := src.drop
      match Entries.get? a src.anchors with
      | none => problem (.undefinedAlias a)
      | some place => return (place, src)
    else
      let (p, t, src) ← src.properties
      match t with
      | .scalar text style => src.drop.scalar p text style
      | .flowSequenceStart =>
        let (place, src) ← src.name p.anchor (.sequence (p.tagOr .sequence) [])
        let (items, src) ← flowItems true fuel room src.drop
        return src.finish place (.sequence (p.tagOr .sequence) items)
      | .flowMappingStart =>
        let (place, src) ← src.name p.anchor (.mapping (p.tagOr .mapping) [])
        let (pairs, src) ← flowPairs true fuel room src.drop
        return src.finish place (.mapping (p.tagOr .mapping) pairs)
      | .blockEntry =>
        if afterKey then
          let (place, src) ← src.name p.anchor (.sequence (p.tagOr .sequence) [])
          let (items, src) ← flatItems fuel room src
          return src.finish place (.sequence (p.tagOr .sequence) items)
        else src.empty p
      | .blockSequenceStart =>
        if inBlock then
          let (place, src) ← src.name p.anchor (.sequence (p.tagOr .sequence) [])
          let (items, src) ← blockItems fuel room src.drop
          return src.finish place (.sequence (p.tagOr .sequence) items)
        else src.empty p
      | .blockMappingStart =>
        if inBlock then
          let (place, src) ← src.name p.anchor (.mapping (p.tagOr .mapping) [])
          let (pairs, src) ← blockPairs fuel room src.drop
          return src.finish place (.mapping (p.tagOr .mapping) pairs)
        else src.empty p
      | _ => src.empty p
termination_by structural fuel => fuel

/-- A node behind a mark, unless one of the given tokens shows that there is none. -/
def readUnless (ends : List Token) (inBlock afterKey : Bool) :
    Nat → Nat → Source → Except Fault (Nat × Source)
  | 0, _, _ => problem (.expected "the node content")
  | fuel + 1, room, src => do
    let (t, src) ← src.advance
    if ends.contains t then return src.absent else read inBlock afterKey fuel room src
termination_by structural fuel => fuel

/-- The entries of a block sequence, up to its end. -/
def blockItems : Nat → Nat → Source → Except Fault (List Nat × Source)
  | 0, _, _ => problem (.expected "<block end>")
  | fuel + 1, room, src => do
    match ← src.peek with
    | (.blockEnd, src) => return ([], src.drop)
    | (.blockEntry, src) =>
      let (n, src) ← readUnless [.blockEntry, .blockEnd] true false fuel room src
      let (more, src) ← blockItems fuel room src
      return (n :: more, src)
    | _ => problem (.expected "<block end>")
termination_by structural fuel => fuel

/-- The entries of a sequence that is not indented. -/
def flatItems : Nat → Nat → Source → Except Fault (List Nat × Source)
  | 0, _, _ => problem (.expected "<block end>")
  | fuel + 1, room, src => do
    match ← src.peek with
    | (.blockEntry, src) =>
      let (n, src) ← readUnless [.blockEntry, .key, .value, .blockEnd] true false fuel room src
      let (more, src) ← flatItems fuel room src
      return (n :: more, src)
    | (_, src) => return ([], src)
termination_by structural fuel => fuel

/-- The pairs of a block mapping, up to its end. -/
def blockPairs : Nat → Nat → Source → Except Fault (List (Nat × Nat) × Source)
  | 0, _, _ => problem (.expected "<block end>")
  | fuel + 1, room, src => do
    let ends : List Token := [.key, .value, .blockEnd]
    match ← src.peek with
    | (.blockEnd, src) => return ([], src.drop)
    | (.key, src) =>
      let (k, src) ← readUnless ends true true fuel room src
      let (v, src) ←
        match ← src.peek with
        | (.value, src) => readUnless ends true true fuel room src
        | (_, src) => pure src.absent
      let (more, src) ← blockPairs fuel room src
      return ((k, v) :: more, src)
    | _ => problem (.expected "<block end>")
termination_by structural fuel => fuel

/-- The items of a flow sequence, up to its end; a key and its value are an item too. -/
def flowItems (first : Bool) : Nat → Nat → Source → Except Fault (List Nat × Source)
  | 0, _, _ => problem (.expected "',' or ']'")
  | fuel + 1, room, src => do
    let (t, src) ← src.peek
    let (t, src) ←
      match first, t with
      | true, t | false, t@.flowSequenceEnd => pure (t, src)
      | false, .flowEntry => src.advance
      | false, _ => problem (.expected "',' or ']'")
    match t with
    | .flowSequenceEnd => return ([], src.drop)
    | .key =>
      let ends : List Token := [.flowEntry, .flowSequenceEnd]
      let (place, src) := src.make (.mapping .mapping [])
      let (k, src) ← readUnless (.value :: ends) false false fuel room src
      let (v, src) ← flowValue ends fuel room src
      let (n, src) := src.finish place (.mapping .mapping [(k, v)])
      let (more, src) ← flowItems false fuel room src
      return (n :: more, src)
    | _ =>
      let (n, src) ← read false false fuel room src
      let (more, src) ← flowItems false fuel room src
      return (n :: more, src)
termination_by structural fuel => fuel

/-- The pairs of a flow mapping, up to its end; a key without a colon has no value. -/
def flowPairs (first : Bool) : Nat → Nat → Source → Except Fault (List (Nat × Nat) × Source)
  | 0, _, _ => problem (.expected "',' or '\x7d'")
  | fuel + 1, room, src => do
    let (t, src) ← src.peek
    let (t, src) ←
      match first, t with
      | true, t | false, t@.flowMappingEnd => pure (t, src)
      | false, .flowEntry => src.advance
      | false, _ => problem (.expected "',' or '\x7d'")
    match t with
    | .flowMappingEnd => return ([], src.drop)
    | .key =>
      let ends : List Token := [.flowEntry, .flowMappingEnd]
      let (k, src) ← readUnless (.value :: ends) false false fuel room src
      let (v, src) ← flowValue ends fuel room src
      let (more, src) ← flowPairs false fuel room src
      return ((k, v) :: more, src)
    | _ =>
      let (k, src) ← read false false fuel room src
      let (_, src) ← src.peek
      let (v, src) := src.absent
      let (more, src) ← flowPairs false fuel room src
      return ((k, v) :: more, src)
termination_by structural fuel => fuel

/-- The value behind a key in a flow collection, if there is one before the given tokens. -/
def flowValue (ends : List Token) : Nat → Nat → Source → Except Fault (Nat × Source)
  | 0, _, _ => problem (.expected "the node content")
  | fuel + 1, room, src => do
    match ← src.peek with
    | (.value, src) => readUnless ends false false fuel room src
    | (_, src) => return src.absent
termination_by structural fuel => fuel

end

/-! ## Documents -/

/-- The handles of tags that need no directive. -/
def standardHandles : List (String × String) := [("!", "!"), ("!!", standardStem)]

/-- The directives in front of a document: the handles that they define. -/
def directives : Nat → Bool → List (String × String) → Source →
    Except Fault (List (String × String) × Source)
  | 0, _, handles, src => .ok (handles, src)
  | fuel + 1, version, handles, src => do
    match ← src.peek with
    | (.version major, src) =>
      if version then problem (.notAllowed "a second version directive is")
      else if major ≠ 1 then problem (.expected "version 1.*")
      else directives fuel true handles src.drop
    | (.handle name stem, src) =>
      if handles.any (·.1 == name) then problem (.notAllowed "a second directive for a handle is")
      else directives fuel version ((name, stem) :: handles) src.drop
    | (.directive, src) => directives fuel version handles src.drop
    | (_, src) => return (handles, src)

/-- The beginning of a document that is marked, up to the token behind the mark. -/
def begin (fuel : Nat) (src : Source) : Except Fault (Token × Source) := do
  let (handles, src) ← src.directives fuel false []
  match ← src.peek with
  | (.documentStart, src) => Source.advance { src with handles := handles ++ standardHandles }
  | _ => problem (.expected "'<document start>'")

/-- Checks that nothing follows a document but marks of its end. -/
def onlyEnd : Nat → Source → Except Fault Unit
  | 0, _ => .ok ()
  | fuel + 1, src => do
    match ← src.peek with
    | (.documentEnd, src) => onlyEnd fuel src.drop
    | (.streamEnd, _) => return ()
    | (_, src) =>
      let (_, src) ← src.directives fuel false []
      match ← src.peek with
      | (.documentStart, _) => problem .severalDocuments
      | _ => problem (.expected "'<document start>'")

/-- The root of a document, if there is a document. -/
def root? (fuel room : Nat) (src : Source) : Except Fault (Option Nat × Source) := do
  match ← src.peek with
  | (.streamEnd, src) => return (none, src)
  | (.documentStart, src) | (.version _, src) | (.handle _ _, src) | (.directive, src) =>
    match ← src.begin fuel with
    | (.documentStart, src) | (.documentEnd, src) | (.streamEnd, src) | (.version _, src)
    | (.handle _ _, src) | (.directive, src) =>
      let (n, src) := src.absent
      return (some n, src)
    | (_, src) =>
      let (n, src) ← src.read true false fuel room
      return (some n, src)
  | (_, src) =>
    let (n, src) ← src.read true false fuel room
    return (some n, src)

end Source

/-- The nodes in one another that readers commonly have room for. -/
def commonNesting : Nat := 480

/-- The document of a text, if it holds one; a character makes four tokens at most. -/
def Document.ofSupply? (supply : Supply) : Except Fault (Option Document) := do
  let fuel := 10 * supply.text.length + 10
  let src : Source := ⟨.start supply, #[], [], Source.standardHandles⟩
  match ← src.root? fuel commonNesting with
  | (none, _) => return none
  | (some root, src) =>
    src.onlyEnd fuel
    return some ⟨src.nodes, root⟩

end DesignTokens.Yaml
