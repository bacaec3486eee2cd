import DesignTokens.Text.Hex
import DesignTokens.Yaml.Cursor

/-!
# Yaml/Scalar — the text of scalars

Plain scalars, quoted scalars and block scalars, and the names of anchors and tags.  Within a
scalar a single line end is folded into a blank, and of several the first is dropped.
-/

namespace DesignTokens.Yaml

open Text

/-! ## Line ends inside scalars -/

/-- The blank or the line ends that stand for the lines skipped after `first`. -/
def folded (first : Char) (more : List Char) : List Char :=
  if first ≠ '\n' then first :: more
  else if more.isEmpty then [' ']
  else more

/-! ## Plain scalars -/

/-- Whether a plain scalar stops at a character, given what follows it. -/
def stopsPlain (inFlow : Bool) (c : Char) (following : Option Char) : Bool :=
  isGap (some c)
    || (c == ':' && (isGap following || (inFlow && following.any [',', '[', ']', '\x7b', '\x7d'].contains)))
    || (inFlow && [',', '?', '[', ']', '\x7b', '\x7d'].contains c)

/-- How many characters a plain scalar takes before a gap. -/
def plainLength (inFlow : Bool) : List Char → Nat
  | [] => 0
  | c :: rest => if stopsPlain inFlow c rest.head? then 0 else plainLength inFlow rest + 1

/-- The line ends after the first one in the gap of a plain scalar; nothing when documents are
separated there. -/
def plainBreaks : Nat → Cursor → Except Fault (Option (List Char) × Cursor)
  | 0, c => .ok (some [], c)
  | fuel + 1, c =>
    if c.isAt ' ' then plainBreaks fuel c.next
    else match c.lineBreak? with
      | none => .ok (some [], c)
      | some (b, c) => do
        if ← c.separates then return (none, c)
        else
          let (more, c) ← plainBreaks fuel c
          return (more.map (b :: ·), c)

/-- A gap in a plain scalar: what stands for it if the scalar goes on (nothing when it cannot),
the cursor behind it, and whether it holds the end of a line. -/
def plainGap (c : Cursor) : Except Fault (List Char × Cursor × Bool) :=
  let blanks := List.replicate (c.countWhile (· == ' ')) ' '
  let c := c.skipWhile (· == ' ')
  match c.lineBreak? with
  | none => .ok (blanks, c, false)
  | some (b, c) => do
    if ← c.separates then return ([], c, true)
    else match ← plainBreaks (c.rest.length + 1) c with
      | (none, c) => return ([], c, true)
      | (some more, c) => return (folded b more, c, true)

/-- What a scalar reader gives: its text, the cursor behind it, and whether it ended on a new
line. -/
structure Scanned where
  text : List Char
  behind : Cursor
  onNewLine : Bool

/-- A plain scalar after `text` and the gap `gap`; lines inside it are indented by `indent`. -/
def plainFrom (inFlow : Bool) (indent : Int) :
    Nat → Cursor → List Char → List Char → Bool → Except Fault Scanned
  | 0, c, text, _, onNewLine => .ok ⟨text, c, onNewLine⟩
  | fuel + 1, c, text, gap, onNewLine => do
    let n := if c.isAt '#' then 0 else plainLength inFlow c.rest
    let behind := c.move n
    behind.knownFor (if behind.isAt ':' then 2 else 1)
    if n = 0 then return ⟨text, c, onNewLine⟩
    else
      let text := text ++ gap ++ c.take n
      let (gap, c, newLine) ← plainGap behind
      if gap.isEmpty || c.isAt '#' || (!inFlow && (c.column : Int) < indent) then
        return ⟨text, c, newLine⟩
      else plainFrom inFlow indent fuel c text gap newLine

/-- A plain scalar. -/
def plainScalar (inFlow : Bool) (indent : Int) (c : Cursor) : Except Fault Scanned :=
  plainFrom inFlow indent (c.rest.length + 1) c [] [] false

/-! ## Quoted scalars -/

/-- The character of an escape of one letter. -/
def letterEscape? : Char → Option Char
  | '0' => some '\x00'
  | 'a' => some '\x07'
  | 'b' => some '\x08'
  | 't' => some '\t'
  | '\t' => some '\t'
  | 'n' => some '\n'
  | 'v' => some '\x0b'
  | 'f' => some '\x0c'
  | 'r' => some '\r'
  | 'e' => some '\x1b'
  | ' ' => some ' '
  | '"' => some '"'
  | '\\' => some '\\'
  | '/' => some '/'
  | 'N' => some '\x85'
  | '_' => some '\xa0'
  | 'L' => some '\u2028'
  | 'P' => some '\u2029'
  | _ => none

/-- The count of digits of an escape by code point. -/
def codeEscape? : Char → Option Nat
  | 'x' => some 2
  | 'u' => some 4
  | 'U' => some 8
  | _ => none

/-- The line ends after the first one inside quotes. -/
def quotedBreaks : Nat → Cursor → Except Fault (List Char × Cursor)
  | 0, c => .ok ([], c)
  | fuel + 1, c => do
    if ← c.separates then c.fail .separatorInQuotes
    else
      let c := c.skipWhile fun ch => ch == ' ' || ch == '\t'
      match c.lineBreak? with
      | none => return ([], c)
      | some (b, c) =>
        let (more, c) ← quotedBreaks fuel c
        return (b :: more, c)

/-- A gap inside quotes. -/
def quotedGap (c : Cursor) : Except Fault (List Char × Cursor) :=
  let isBlank (ch : Char) : Bool := ch == ' ' || ch == '\t'
  let blanks := c.rest.takeWhile isBlank
  let c := c.skipWhile isBlank
  match c.head with
  | none => c.fail .endInQuotes
  | some _ =>
    match c.lineBreak? with
    | none => .ok (blanks, c)
    | some (b, c) => (quotedBreaks (c.rest.length + 1) c).map fun r => (folded b r.1, r.2)

/-- A text that was quoted.  Half of a surrogate pair is no character; U+FFFD stands for it, and
the text is marked. -/
structure Quoted where
  text : List Char
  halved : Bool

/-- A text with another one behind it. -/
def Quoted.append (a b : Quoted) : Quoted := ⟨a.text ++ b.text, a.halved || b.halved⟩

/-- The text that a code point is. -/
def Quoted.ofCode (code : Nat) : Quoted :=
  if 0xD800 ≤ code ∧ code ≤ 0xDFFF then ⟨['\uFFFD'], true⟩ else ⟨[Char.ofNat code], false⟩

/-- An escape behind its backslash. -/
def quotedEscape (c : Cursor) : Except Fault (Quoted × Cursor) :=
  match c.head with
  | none => c.fail (.expected "an escape")
  | some ch =>
    match letterEscape? ch with
    | some d => .ok (⟨[d], false⟩, c.next)
    | none =>
      match codeEscape? ch with
      | some n =>
        let digits := (c.next.take n).takeWhile fun ch => (hexValue? ch).isSome
        let behind := c.next.move digits.length
        if digits.length < n then behind.fail (.expected "hexadecimal digits")
        else
          let code := (hexNumber? digits).getD 0
          if 0x80000000 ≤ code then .error (.value .hugeCodePoint)
          else if 0x110000 ≤ code then .error (.value .codePoint)
          else .ok (.ofCode code, behind)
      | none =>
        match c.lineBreak? with
        | some (_, c) => (quotedBreaks (c.rest.length + 1) c).map fun r => (⟨r.1, false⟩, r.2)
        | none => c.fail (.unknownEscape ch)

/-- The text between quotes from `text` on, up to the closing quote. -/
def quotedFrom (double : Bool) : Nat → Cursor → Quoted → Except Fault (Quoted × Cursor)
  | 0, c, _ => c.fail .endInQuotes
  | fuel + 1, c, text =>
    match c.rest with
    | [] => c.fail .endInQuotes
    | ch :: rest =>
      if isGap (some ch) then do
        let (gap, c) ← quotedGap c
        quotedFrom double fuel c (text.append ⟨gap, false⟩)
      else if ch = '\'' ∧ double = false then
        if rest.head? = some '\'' then
          quotedFrom double fuel (c.move 2) (text.append ⟨['\''], false⟩)
        else .ok (text, c.next)
      else if ch = '"' ∧ double = true then .ok (text, c.next)
      else if ch = '\\' ∧ double = true then do
        let (piece, c) ← quotedEscape c.next
        quotedFrom double fuel c (text.append piece)
      else quotedFrom double fuel c.next (text.append ⟨[ch], false⟩)

/-- A quoted scalar. -/
def quotedScalar (double : Bool) (c : Cursor) : Except Fault (Quoted × Cursor) :=
  quotedFrom double (c.rest.length + 1) c.next ⟨[], false⟩

/-! ## Block scalars -/

/-- What becomes of the line ends at the end of a block scalar. -/
inductive Chomping where
  | strip
  | clip
  | keep
  deriving DecidableEq

/-- The chomping that a mark asks for. -/
def chomping? : Option Char → Option Chomping
  | some '+' => some .keep
  | some '-' => some .strip
  | _ => none

/-- The indentation that a digit asks for. -/
def increment? (c : Cursor) : Except Fault (Option Nat × Cursor) :=
  match c.head with
  | some ch =>
    if ch.isDigit then
      if ch = '0' then c.fail (.expected "an indentation from 1 to 9")
      else .ok (some (ch.toNat - 0x30), c.next)
    else .ok (none, c)
  | none => .ok (none, c)

/-- The marks behind the bar of a block scalar, in either order. -/
def blockMarks (c : Cursor) : Except Fault (Chomping × Option Nat × Cursor) := do
  let (chomp, increment, c) ←
    match chomping? c.head with
    | some chomp => (increment? c.next).map fun r => (chomp, r.1, r.2)
    | none => do
      let (increment, c) ← increment? c
      match increment, chomping? c.head with
      | some _, some chomp => pure (chomp, increment, c.next)
      | _, _ => pure (Chomping.clip, increment, c)
  if isTablessGap c.head then return (chomp, increment, c)
  else c.fail (.expected "chomping or indentation indicators")

/-- Behind blanks and a comment, up to the end of the line and past it. -/
def restOfLine (c : Cursor) : Except Fault Cursor :=
  let c := c.skipWhile (· == ' ')
  let c := if c.isAt '#' then c.skipWhile fun ch => !isBreak ch else c
  if endsLine c.head then .ok c.skipBreak else c.fail (.expected "a comment or a line break")

/-- The empty lines before the first line of a block scalar, and its greatest indentation so far. -/
def leadingBreaks : Nat → Nat → Cursor → List Char × Nat × Cursor
  | 0, indent, c => ([], indent, c)
  | fuel + 1, indent, c =>
    if c.isAt ' ' then leadingBreaks fuel (max indent c.next.column) c.next
    else match c.lineBreak? with
      | none => ([], indent, c)
      | some (b, c) =>
        let r := leadingBreaks fuel indent c
        (b :: r.1, r.2)

/-- Behind the indentation of a line, up to `indent` columns. -/
def skipIndent (indent : Nat) : Nat → Cursor → Cursor
  | 0, c => c
  | fuel + 1, c => if c.column < indent ∧ c.isAt ' ' then skipIndent indent fuel c.next else c

/-- The empty lines inside a block scalar, and the cursor behind the indentation of the next one. -/
def innerBreaks (indent : Nat) : Nat → Cursor → List Char × Cursor
  | 0, c => ([], c)
  | fuel + 1, c =>
    let c := skipIndent indent c.rest.length c
    match c.lineBreak? with
    | none => ([], c)
    | some (b, c) =>
      let r := innerBreaks indent fuel c
      (b :: r.1, r.2)

/-- The lines of a block scalar from `text` and the empty lines `breaks` on: the text up to its last
line, the end of that line, the empty lines after it, and the cursor behind. -/
def blockLines (fold : Bool) (indent : Nat) :
    Nat → Cursor → List Char → List Char → List Char × List Char × List Char × Cursor
  | 0, c, text, breaks => (text, [], breaks, c)
  | fuel + 1, c, text, breaks =>
    if c.column ≠ indent ∨ c.head = none then (text, [], breaks, c)
    else
      let isBlank (o : Option Char) : Bool := o == some ' ' || o == some '\t'
      let flush := !isBlank c.head
      let line := c.rest.takeWhile fun ch => !isBreak ch
      let c := c.skipWhile fun ch => !isBreak ch
      let text := text ++ breaks ++ line
      let ending := (c.lineBreak?.map fun r => [r.1]).getD []
      let (breaks, c) := innerBreaks indent (c.rest.length + 1) c.skipBreak
      if c.column = indent ∧ c.head ≠ none then
        let join :=
          if fold && ending == ['\n'] && flush && !isBlank c.head then
            if breaks.isEmpty then [' '] else []
          else ending
        blockLines fold indent fuel c (text ++ join) breaks
      else (text, ending, breaks, c)

/-- A block scalar inside the indentation `parent`. -/
def blockScalar (fold : Bool) (parent : Int) (c : Cursor) : Except Fault (List Char × Cursor) := do
  let (chomp, increment, c) ← blockMarks c.next
  let c ← restOfLine c
  let least := (max (parent + 1) 1).toNat
  let (breaks, indent, c) :=
    match increment with
    | some n =>
      let indent := least + n - 1
      let r := innerBreaks indent (c.rest.length + 1) c
      (r.1, indent, r.2)
    | none =>
      let r := leadingBreaks (c.rest.length + 1) 0 c
      (r.1, max least r.2.1, r.2.2)
  let (text, ending, breaks, c) := blockLines fold indent (c.rest.length + 1) c [] breaks
  match chomp with
  | .strip => return (text, c)
  | .clip => return (text ++ ending, c)
  | .keep => return (text ++ ending ++ breaks, c)

/-! ## Names -/

/-- The name of an anchor or of an alias, behind its mark. -/
def anchorName (c : Cursor) : Except Fault (String × Cursor) :=
  let name := c.rest.takeWhile isNameChar
  let behind := c.skipWhile isNameChar
  if name.isEmpty then c.fail (.expected "alphabetic or numeric character")
  else if isGap behind.head || behind.head.any ['?', ':', ',', ']', '\x7d', '%', '@', '\x60'].contains
  then .ok (String.ofList name, behind)
  else behind.fail (.expected "alphabetic or numeric character")

/-- Bytes written by their hexadecimal digits, each behind a percent sign. -/
def uriBytes : Nat → Cursor → Except Fault (List UInt8 × Cursor)
  | 0, c => .ok ([], c)
  | fuel + 1, c =>
    if c.isAt '%' then
      match c.next.head.bind hexValue?, (c.next.peek 1).bind hexValue? with
      | some a, some b =>
        (uriBytes fuel (c.move 3)).map fun r => (UInt8.ofNat (16 * a + b) :: r.1, r.2)
      | some _, none => (c.move 2).fail (.expected "URI escape sequence of 2 hexadecimal numbers")
      | none, _ => c.next.fail (.expected "URI escape sequence of 2 hexadecimal numbers")
    else .ok ([], c)

/-- Whether a character may stand in a tag as it is. -/
def isUriChar (c : Char) : Bool :=
  c.isAlphanum || "-;/?:@&=+$,_.!~*'()[]".toList.contains c

/-- A piece of a tag from `text` on. -/
def uriFrom : Nat → Cursor → List Char → Except Fault (List Char × Cursor)
  | 0, c, text => .ok (text, c)
  | fuel + 1, c, text =>
    match c.head with
    | some ch =>
      if isUriChar ch then uriFrom fuel c.next (text ++ [ch])
      else if ch = '%' then do
        let (bytes, behind) ← uriBytes (c.rest.length + 1) c
        match decodeUtf8 bytes with
        | .ok piece => uriFrom fuel behind (text ++ piece)
        | .error _ => behind.fail (.expected "UTF-8 in a URI")
      else .ok (text, c)
    | none => .ok (text, c)

/-- A tag without its handle. -/
def uri (c : Cursor) : Except Fault (String × Cursor) := do
  let (text, behind) ← uriFrom (c.rest.length + 1) c []
  if text.isEmpty then behind.fail (.expected "URI") else return (String.ofList text, behind)

/-- The handle of a tag: one mark, or a name between two. -/
def tagHandle (c : Cursor) : Except Fault (String × Cursor) :=
  if !c.isAt '!' then c.fail (.expected "'!'")
  else if c.peek 1 = some ' ' then .ok ("!", c.next)
  else
    let name := c.next.rest.takeWhile isNameChar
    let behind := c.next.skipWhile isNameChar
    if behind.isAt '!' then .ok ("!" ++ String.ofList name ++ "!", behind.next)
    else behind.fail (.expected "'!'")

/-- A tag: its handle, if it has one, and what follows. -/
def tag (c : Cursor) : Except Fault (Option String × String × Cursor) := do
  let (handle, suffix, behind) ←
    if c.peek 1 = some '<' then do
      let (suffix, behind) ← uri (c.move 2)
      if behind.isAt '>' then pure ((none : Option String), suffix, behind.next)
      else behind.fail (.expected "'>'")
    else if isGap (c.peek 1) then pure (none, "!", c.next)
    else do
      let word := c.next.rest.takeWhile fun ch => !isTablessGap (some ch)
      let (handle, behind) ←
        if word.contains '!' then tagHandle c
        else do
          (c.next.move word.length).known
          pure ("!", c.next)
      let (suffix, behind) ← uri behind
      pure (some handle, suffix, behind)
  if isTablessGap behind.head then return (handle, suffix, behind)
  else behind.fail (.expected "' '")

end DesignTokens.Yaml
