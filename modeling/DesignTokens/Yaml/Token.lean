import DesignTokens.Yaml.Scalar

/-!
# Yaml/Token — the tokens of a YAML text

Tokens are the marks, scalars and names of a text, together with the beginnings and the ends of
block collections, which indentation alone tells.  A key of a mapping is known only at the colon
behind it: until then it is kept as a *possible key* of its flow level, and the marks for the key
and for the mapping it begins are put in front of it afterwards.  A possible key ends with its line
and after 1024 characters.

A text is read **no further than its tokens are asked for**: up to the first token and, while that
may be a key, on until this is settled.

* `Scan.peek` — the first token of those that were not taken yet.
-/

namespace DesignTokens.Yaml

/-- How a scalar is written. -/
inductive ScalarStyle where
  | plain
  /-- In quotes or behind a bar. -/
  | marked
  /-- In quotes, with half of a surrogate pair in it. -/
  | halved
  deriving DecidableEq, Repr

/-- A token. -/
inductive Token where
  /-- A directive that gives the version. -/
  | version (major : Nat)
  /-- A directive that gives a handle its meaning. -/
  | handle (name stem : String)
  /-- Any other directive. -/
  | directive
  | documentStart
  | documentEnd
  | streamEnd
  | blockSequenceStart
  | blockMappingStart
  | blockEnd
  | flowSequenceStart
  | flowSequenceEnd
  | flowMappingStart
  | flowMappingEnd
  | blockEntry
  | flowEntry
  | key
  | value
  | alias (name : String)
  | anchor (name : String)
  | tag (handle : Option String) (suffix : String)
  | scalar (text : String) (style : ScalarStyle)
  deriving DecidableEq, Repr

/-- A place where a key may have begun. -/
structure PossibleKey where
  /-- How many tokens of the text come before it. -/
  slot : Nat
  /-- Whether there must be a key. -/
  required : Bool
  index : Nat
  line : Nat
  column : Nat

/-- A text read up to a place. -/
structure Scan where
  cursor : Cursor
  /-- The tokens that were not taken yet. -/
  tokens : List Token
  /-- How many tokens were taken. -/
  taken : Nat
  /-- Whether the last token was read. -/
  ended : Bool
  /-- More than the characters of the text. -/
  bound : Nat
  /-- How many flow collections are open. -/
  flow : Nat
  /-- The column of the innermost block collection, and those of the ones around it. -/
  indent : Int
  outer : List Int
  /-- Whether a key may begin here. -/
  keyAllowed : Bool
  /-- The possible keys, by flow level. -/
  keys : List (Nat × PossibleKey)

namespace Scan

/-- The text before its first token; a byte order mark at its front is passed over. -/
def start (supply : Supply) : Scan :=
  let c := Cursor.start supply
  { cursor := if c.isAt '\uFEFF' then c.next else c
    tokens := [], taken := 0, ended := false, bound := supply.text.length + 1
    flow := 0, indent := -1, outer := [], keyAllowed := true, keys := [] }

/-- One more token. -/
def push (s : Scan) (t : Token) : Scan := { s with tokens := s.tokens ++ [t] }

/-- One more token, which is a mark of `n` characters. -/
def mark (s : Scan) (n : Nat) (t : Token) : Scan := { s.push t with cursor := s.cursor.move n }

/-! ## Indentation and possible keys -/

/-- Ends block collections down to a column. -/
def unindentTo (column : Int) : Nat → Scan → Scan
  | 0, s => s
  | fuel + 1, s =>
    if column < s.indent then
      unindentTo column fuel
        { s.push .blockEnd with indent := s.outer.head?.getD (-1), outer := s.outer.tail }
    else s

/-- Ends the block collections that a column is outside of; inside a flow collection there are
none. -/
def unindent (s : Scan) (column : Int) : Scan :=
  if s.flow = 0 then unindentTo column (s.outer.length + 1) s else s

/-- Begins a block collection with `t` at a place among the tokens, unless the column is that of the
innermost one or left of it. -/
def indentAt (s : Scan) (column : Nat) (slot : Nat) (t : Token) : Scan :=
  if s.indent < column then
    { s with
      tokens := s.tokens.take slot ++ t :: s.tokens.drop slot
      indent := column
      outer := s.indent :: s.outer }
  else s

/-- Drops the possible key of this flow level; a required one must not be dropped. -/
def dropKey (s : Scan) : Except Fault Scan :=
  match s.keys.find? (·.1 == s.flow) with
  | some (_, k) =>
    if k.required then s.cursor.fail .missingColon
    else .ok { s with keys := s.keys.filter (·.1 != s.flow) }
  | none => .ok s

/-- Drops the possible keys of other lines and those that are too far back. -/
def dropStale (s : Scan) : Except Fault Scan :=
  let isStale (k : PossibleKey) : Bool :=
    k.line != s.cursor.line || k.index + 1024 < s.cursor.index
  if s.keys.any fun e => isStale e.2 && e.2.required then s.cursor.fail .missingColon
  else .ok { s with keys := s.keys.filter fun e => !isStale e.2 }

/-- Keeps this place as a possible key. -/
def saveKey (s : Scan) : Except Fault Scan := do
  if s.keyAllowed then
    let s ← s.dropKey
    let k : PossibleKey :=
      { slot := s.taken + s.tokens.length
        required := s.flow == 0 && s.indent == (s.cursor.column : Int)
        index := s.cursor.index
        line := s.cursor.line
        column := s.cursor.column }
    return { s with keys := (s.flow, k) :: s.keys }
  else return s

/-- Behind blanks, comments and line ends; at the end of a line outside flow collections a key may
begin. -/
def skipToToken : Nat → Scan → Scan
  | 0, s => s
  | fuel + 1, s =>
    let c := s.cursor.skipWhile (· == ' ')
    let c := if c.isAt '#' then c.skipWhile fun ch => !isBreak ch else c
    match c.lineBreak? with
    | none => { s with cursor := c }
    | some (_, c) =>
      skipToToken fuel { s with cursor := c, keyAllowed := s.keyAllowed || s.flow == 0 }

/-! ## Directives and documents -/

/-- A number in a directive. -/
def number (c : Cursor) : Except Fault (Nat × Cursor) := do
  let digits := c.rest.takeWhile Char.isDigit
  let behind := c.skipWhile Char.isDigit
  behind.known
  if digits.isEmpty then c.fail (.expected "a digit")
  else
    match Text.readDigits digits with
    | .ok n => return (n, behind)
    | .error e => throw (.value (.digits e))

/-- A directive behind its mark. -/
def directive (c : Cursor) : Except Fault (Token × Cursor) := do
  let name := String.ofList (c.rest.takeWhile isNameChar)
  let behind := c.skipWhile isNameChar
  if name.isEmpty || !isTablessGap behind.head then
    behind.fail (.expected "alphabetic or numeric character")
  else
    let c := behind.skipWhile (· == ' ')
    let (token, c) ←
      if name = "YAML" then do
        let (major, c) ← number c
        if !c.isAt '.' then c.fail (.expected "a digit or '.'")
        else
          let (_, c) ← number c.next
          if isTablessGap c.head then pure (Token.version major, c)
          else c.fail (.expected "a digit or ' '")
      else if name = "TAG" then do
        let (handle, c) ← tagHandle c
        if !c.isAt ' ' then c.fail (.expected "' '")
        else
          let (stem, c) ← uri (c.skipWhile (· == ' '))
          if isTablessGap c.head then pure (Token.handle handle stem, c)
          else c.fail (.expected "' '")
      else pure (Token.directive, behind.skipWhile fun ch => !isBreak ch)
    let c ← restOfLine c
    return (token, c)

/-- Ends all block collections and forbids a key here. -/
def closeBlocks (s : Scan) : Except Fault Scan := do
  let s ← (s.unindent (-1)).dropKey
  return { s with keyAllowed := false }

/-! ## Marks of collections -/

/-- The beginning of a flow collection. -/
def openFlow (s : Scan) (t : Token) : Except Fault Scan := do
  let s ← s.saveKey
  return { s.mark 1 t with flow := s.flow + 1, keyAllowed := true }

/-- The end of a flow collection. -/
def closeFlow (s : Scan) (t : Token) : Except Fault Scan := do
  if s.flow = 0 then s.cursor.fail (.notAllowed "the end of a flow collection is")
  else
    let s ← s.dropKey
    return { s.mark 1 t with flow := s.flow - 1, keyAllowed := false }

/-- The mark of an entry of a block sequence. -/
def blockEntry (s : Scan) : Except Fault Scan := do
  if s.flow = 0 ∧ s.keyAllowed = false then s.cursor.fail (.notAllowed "sequence entries are")
  else
    let s := if s.flow = 0 then s.indentAt s.cursor.column s.tokens.length .blockSequenceStart else s
    let s ← { s with keyAllowed := true }.dropKey
    return s.mark 1 .blockEntry

/-- The mark of a key that is written out. -/
def keyMark (s : Scan) : Except Fault Scan := do
  if s.flow = 0 ∧ s.keyAllowed = false then s.cursor.fail (.notAllowed "mapping keys are")
  else
    let s := if s.flow = 0 then s.indentAt s.cursor.column s.tokens.length .blockMappingStart else s
    let s ← { s with keyAllowed := s.flow == 0 }.dropKey
    return s.mark 1 .key

/-- The mark of a value: the possible key of this flow level, if there is one, is a key. -/
def valueMark (s : Scan) : Except Fault Scan := do
  match s.keys.find? (·.1 == s.flow) with
  | some (_, k) =>
    let slot := k.slot - s.taken
    let s :=
      { s with
        keys := s.keys.filter (·.1 != s.flow)
        tokens := s.tokens.take slot ++ Token.key :: s.tokens.drop slot }
    let s := if s.flow = 0 then s.indentAt k.column slot .blockMappingStart else s
    return { s with keyAllowed := false }.mark 1 .value
  | none =>
    if s.flow = 0 ∧ s.keyAllowed = false then s.cursor.fail (.notAllowed "mapping values are")
    else
      let s :=
        if s.flow = 0 then s.indentAt s.cursor.column s.tokens.length .blockMappingStart else s
      let s ← { s with keyAllowed := s.flow == 0 }.dropKey
      return s.mark 1 .value

/-! ## Scalars and names -/

/-- Something read by `f` that may be a key, and behind which no key begins. -/
def named (s : Scan) (f : Cursor → Except Fault (Token × Cursor)) : Except Fault Scan := do
  let s ← s.saveKey
  let (t, c) ← f s.cursor
  return { s.push t with cursor := c, keyAllowed := false }

/-- A plain scalar. -/
def plain (s : Scan) : Except Fault Scan := do
  let s ← s.saveKey
  let r ← plainScalar (s.flow != 0) (s.indent + 1) s.cursor
  return { s.push (.scalar (String.ofList r.text) .plain) with
    cursor := r.behind, keyAllowed := r.onNewLine }

/-- A block scalar. -/
def block (s : Scan) (fold : Bool) : Except Fault Scan := do
  let s ← { s with keyAllowed := true }.dropKey
  let (text, c) ← blockScalar fold s.indent s.cursor
  return { s.push (.scalar (String.ofList text) .marked) with cursor := c }

/-- Whether a plain scalar begins here. -/
def startsPlain (s : Scan) (ch : Char) : Bool :=
  let gapNext := isGap (s.cursor.peek 1)
  !(isGap (some ch) || "-?:,[]\x7b\x7d#&*!|>'\"%@\x60".toList.contains ch)
    || (!gapNext && (ch == '-' || (s.flow == 0 && (ch == '?' || ch == ':'))))

/-! ## The text -/

/-- The token that begins with `ch`, which is here. -/
def fetch (s : Scan) (ch : Char) : Except Fault Scan := do
  let c := s.cursor
  let separates ← if c.column = 0 ∧ (ch = '-' ∨ ch = '.') then c.separates else pure false
  if ch = '-' ∨ (s.flow = 0 ∧ (ch = '?' ∨ ch = ':')) then c.knownFor 2
  let gapNext := isGap (c.peek 1)
  if ch = '%' ∧ c.column = 0 then
    let s ← s.closeBlocks
    let (t, c) ← directive c.next
    return { s.push t with cursor := c }
  else if separates then
    return (← s.closeBlocks).mark 3 (if ch = '-' then .documentStart else .documentEnd)
  else if ch = '[' then s.openFlow .flowSequenceStart
  else if ch = '\x7b' then s.openFlow .flowMappingStart
  else if ch = ']' then s.closeFlow .flowSequenceEnd
  else if ch = '\x7d' then s.closeFlow .flowMappingEnd
  else if ch = ',' then return (← { s with keyAllowed := true }.dropKey).mark 1 .flowEntry
  else if ch = '-' ∧ gapNext then s.blockEntry
  else if ch = '?' ∧ (s.flow ≠ 0 ∨ gapNext) then s.keyMark
  else if ch = ':' ∧ (s.flow ≠ 0 ∨ gapNext) then s.valueMark
  else if ch = '*' then
    s.named fun c => (anchorName c.next).map fun r => (Token.alias r.1, r.2)
  else if ch = '&' then
    s.named fun c => (anchorName c.next).map fun r => (Token.anchor r.1, r.2)
  else if ch = '!' then s.named fun c => (tag c).map fun r => (Token.tag r.1 r.2.1, r.2.2)
  else if ch = '|' ∧ s.flow = 0 then s.block false
  else if ch = '>' ∧ s.flow = 0 then s.block true
  else if ch = '\'' ∨ ch = '"' then
    s.named fun c =>
      (quotedScalar (ch == '"') c).map fun r =>
        (Token.scalar (String.ofList r.1.text) (if r.1.halved then .halved else .marked), r.2)
  else if s.startsPlain ch then s.plain
  else do
    c.knownFor 2
    c.fail (.cannotStart ch)

/-- One more token, perhaps together with marks that indentation gives. -/
def more (s : Scan) : Except Fault Scan := do
  let s := s.skipToToken s.bound
  s.cursor.known
  let s ← s.dropStale
  let s := s.unindent s.cursor.column
  match s.cursor.head with
  | none =>
    let s ← s.closeBlocks
    return { s.push .streamEnd with ended := true, keys := [] }
  | some ch =>
    let s ← s.fetch ch
    s.cursor.known
    return s

/-! ## Tokens one by one -/

/-- Reads on until the first token is known not to be a key that a colon is still to tell; every
token takes at least one character. -/
def settle : Nat → Scan → Except Fault Scan
  | 0, s => .ok s
  | fuel + 1, s =>
    if s.ended then .ok s
    else if s.tokens.isEmpty then do settle fuel (← s.more)
    else do
      let s ← s.dropStale
      if s.keys.any fun e => e.2.slot == s.taken then settle fuel (← s.more) else return s

/-- The first token of those that were not taken yet. -/
def peek (s : Scan) : Except Fault (Token × Scan) := do
  let s ← s.settle (s.bound + 1)
  return (s.tokens.head?.getD .streamEnd, s)

/-- Takes the first token. -/
def drop (s : Scan) : Scan := { s with tokens := s.tokens.tail, taken := s.taken + 1 }

end Scan

end DesignTokens.Yaml
