/-
This file cuts YAML text into tokens. Deeper columns open collections and shallower ones close them.
A key is recognised only by the colon after it, so each token that may be a key is remembered until
its line ends.
-/

import ChipEight.Text.Half
import ChipEight.Text.Hex
import ChipEight.Yaml.Problem

namespace ChipEight.Yaml

/-- What a line before a document tells about it. -/
inductive Directive where
  | version (major : Nat)
  | handle (name : String)
  | other
  deriving DecidableEq, Repr

inductive Token where
  | documentStart
  | documentEnd
  | directive (directive : Directive)
  | blockSequence
  | blockMapping
  | blockEnd
  | flowSequence
  | flowSequenceEnd
  | flowMapping
  | flowMappingEnd
  | entry
  | flowEntry
  | key
  | value
  | anchor (name : String)
  | alias (name : String)
  | scalar (plain : Bool) (text : String)
  deriving DecidableEq, Repr

/-- A token that may turn out to be a key. -/
structure PossibleKey where
  level : Nat
  place : Nat
  required : Bool
  line : Nat
  index : Nat
  column : Nat

/-- How far the text is read. -/
structure Reading where
  rest : List Char
  index : Nat
  line : Nat
  column : Nat
  level : Nat
  indent : Int
  indents : List Int
  keyAllowed : Bool
  keys : List PossibleKey
  tokens : Array Token

namespace Reading

def initial (text : List Char) : Reading :=
  ⟨text, 0, 0, 0, 0, -1, [], true, [], #[]⟩

def isBreak (character : Char) : Bool :=
  character ∈ ['\r', '\n', '\u0085', '\u2028', '\u2029']

/-- Blanks, line ends and the end of the text part tokens. -/
def isGap (character : Char) : Bool :=
  character == '\x00' || character == ' ' || character == '\t' || isBreak character

/-- The character at a distance; after the last one there are zeros. -/
def peek (reading : Reading) (distance : Nat) : Char :=
  (reading.rest[distance]?).getD '\x00'

def forwardOne (reading : Reading) : Reading :=
  match reading.rest with
  | [] => reading
  | character :: rest =>
      let after := { reading with rest := rest, index := reading.index + 1 }
      if isBreak character && !(character == '\r' && rest.head? == some '\n') then
        { after with line := reading.line + 1, column := 0 }
      else if character == '\ufeff' then after
      else { after with column := reading.column + 1 }

def forward (reading : Reading) : Nat → Reading
  | 0 => reading
  | count + 1 => forward reading.forwardOne count

def add (reading : Reading) (token : Token) : Reading :=
  { reading with tokens := reading.tokens.push token }

/-- The character that a line end counts as, and the reading after it. -/
def lineBreak (reading : Reading) : Char × Reading :=
  match reading.rest with
  | '\r' :: '\n' :: _ => ('\n', reading.forward 2)
  | '\u2028' :: _ => ('\u2028', reading.forward 1)
  | '\u2029' :: _ => ('\u2029', reading.forward 1)
  | _ => ('\n', reading.forward 1)

/-- Three points or dashes of this kind stand alone at the cursor. -/
def isMark (reading : Reading) (character : Char) : Bool :=
  reading.peek 0 == character && reading.peek 1 == character && reading.peek 2 == character &&
    isGap (reading.peek 3)

def isSeparator (reading : Reading) : Bool :=
  reading.isMark '-' || reading.isMark '.'

/-- The reading at the next token, after blanks, comments and line ends. -/
def toNext (reading : Reading) : Nat → Reading
  | 0 => reading
  | fuel + 1 =>
      match reading.rest with
      | '\ufeff' :: _ => if reading.index == 0 then toNext (reading.forward 1) fuel else reading
      | ' ' :: _ => toNext (reading.forward 1) fuel
      | '#' :: rest =>
          let comment := (rest.takeWhile fun character =>
            character != '\x00' && !isBreak character).length
          toNext (reading.forward (comment + 1)) fuel
      | character :: _ =>
          if isBreak character then
            let after := reading.lineBreak.2
            toNext (if reading.level == 0 then { after with keyAllowed := true } else after) fuel
          else reading
      | [] => reading

/-- The reading goes on only if the text has a meaning so far. -/
abbrev Step := Except Problem Reading

/-- Keys whose colon did not come on their line are forgotten; one that had to be a key is wrong. -/
def dropStale (reading : Reading) : Step :=
  let isStale (key : PossibleKey) :=
    key.line != reading.line || 1024 < reading.index - key.index
  if reading.keys.any fun key => isStale key && key.required then .error .shapeless
  else .ok { reading with keys := reading.keys.filter fun key => !isStale key }

/-- The possible key of the present level is forgotten. -/
def dropKey (reading : Reading) : Step :=
  let here (key : PossibleKey) := key.level == reading.level
  if reading.keys.any fun key => here key && key.required then .error .shapeless
  else .ok { reading with keys := reading.keys.filter fun key => !here key }

/-- The next token may be a key. -/
def noteKey (reading : Reading) : Step :=
  if reading.keyAllowed then do
    let dropped ← reading.dropKey
    let required := reading.level == 0 && reading.indent == reading.column
    let key : PossibleKey :=
      ⟨reading.level, reading.tokens.size, required, reading.line, reading.index, reading.column⟩
    pure { dropped with keys := key :: dropped.keys }
  else .ok reading

/-- Collections deeper than the column end. -/
def unwind (reading : Reading) (column : Int) : List Int → Reading
  | [] => reading
  | outer :: others =>
      if reading.level == 0 && column < reading.indent then
        unwind { reading.add .blockEnd with indent := outer, indents := others } column others
      else reading

/-- A column deeper than the present one opens a collection. -/
def deepen (reading : Reading) (column : Nat) : Option Reading :=
  if reading.indent < column then
    some { reading with indent := column, indents := reading.indent :: reading.indents }
  else none

/-- A token that is no key, after which a key may or may not come. -/
def plainToken (reading : Reading) (token : Token) (length : Nat) (keyAfter : Bool) : Step := do
  let dropped ← reading.dropKey
  pure ({ dropped with keyAllowed := keyAfter }.add token |>.forward length)

def documentMark (reading : Reading) (token : Token) : Step :=
  (reading.unwind (-1) reading.indents).plainToken token 3 false

def isBlank (character : Char) : Bool := character == ' '

/-- Characters of the names of directives and of handles. -/
def isNamePart (character : Char) : Bool :=
  character.isAlphanum || character == '-' || character == '_'

/-- Nothing follows but blanks and, after them, a comment. -/
def isLineEnd (text : List Char) : Bool :=
  text.isEmpty || (text.head?.any isBlank &&
    (text.dropWhile isBlank).head?.all fun character => character == '#')

/-- The version of the format, two numbers with a point between them. -/
def version? (text : List Char) : Option Directive :=
  let major := text.takeWhile Char.isDigit
  match text.drop major.length with
  | '.' :: rest =>
      let minor := rest.takeWhile Char.isDigit
      if major.isEmpty || minor.isEmpty || !isLineEnd (rest.drop minor.length) then none
      else some (.version (major.foldl (fun value digit => 10 * value + (digit.toNat - 48)) 0))
  | _ => none

/-- The handle of a tag at the start of a text, and what follows it. -/
def handle? : List Char → Option (String × List Char)
  | '!' :: ' ' :: rest => some ("!", ' ' :: rest)
  | '!' :: rest =>
      let name := rest.takeWhile isNamePart
      match rest.drop name.length with
      | '!' :: ' ' :: more => some ("!" ++ String.ofList name ++ "!", ' ' :: more)
      | _ => none
  | _ => none

def addressMarks : List Char := "-;/?:@&=+$,_.!~*'()[]%".toList

/-- A percent sign comes before two digits of base sixteen. -/
def isEscaped : List Char → Bool
  | [] => true
  | '%' :: first :: second :: rest =>
      (Hex.digitValue? first).isSome && (Hex.digitValue? second).isSome && isEscaped rest
  | character :: rest => character != '%' && isEscaped rest

/-- What a handle of tags stands for. -/
def handleDirective? (text : List Char) : Option Directive := do
  let (name, after) ← handle? text
  let rest := after.dropWhile isBlank
  let address := rest.takeWhile fun character =>
    character.isAlphanum || addressMarks.contains character
  if address.isEmpty || !isEscaped address || !isLineEnd (rest.drop address.length) then none
  else some (.handle name)

/-- The directive of a line after its mark. A name that is not known says nothing. -/
def directiveOf? (line : List Char) : Option Directive :=
  let name := line.takeWhile isNamePart
  let rest := line.drop name.length
  let inner := rest.dropWhile isBlank
  if name.isEmpty || !(rest.isEmpty || rest.head?.any isBlank) then none
  else if name == "YAML".toList then version? inner
  else if name == "TAG".toList then handleDirective? inner
  else some .other

/-- A directive takes the rest of its line. -/
def directive (reading : Reading) : Step :=
  let line := reading.rest.takeWhile fun character => !isBreak character
  match directiveOf? (line.drop 1) with
  | some known =>
      (reading.unwind (-1) reading.indents).plainToken (.directive known) line.length false
  | none => .error .shapeless

def flowStart (reading : Reading) (token : Token) : Step := do
  let noted ← reading.noteKey
  pure ({ noted with level := noted.level + 1, keyAllowed := true }.add token |>.forward 1)

def flowEnd (reading : Reading) (token : Token) : Step := do
  let dropped ← reading.dropKey
  pure ({ dropped with level := dropped.level - 1, keyAllowed := false }.add token |>.forward 1)

/-- A dash opens a sequence or stands for its next entry. -/
def blockEntry (reading : Reading) : Step :=
  if reading.level != 0 then reading.plainToken .entry 1 true
  else if !reading.keyAllowed then .error .shapeless
  else
    match reading.deepen reading.column with
    | some deeper => (deeper.add .blockSequence).plainToken .entry 1 true
    | none => reading.plainToken .entry 1 true

/-- A question mark before a key. -/
def explicitKey (reading : Reading) : Step :=
  if reading.level != 0 then reading.plainToken .key 1 false
  else if !reading.keyAllowed then .error .shapeless
  else
    match reading.deepen reading.column with
    | some deeper => (deeper.add .blockMapping).plainToken .key 1 true
    | none => reading.plainToken .key 1 true

/-- The tokens with others put in at a place. -/
def insertAt (tokens : Array Token) (place : Nat) (others : Array Token) : Array Token :=
  tokens.extract 0 place ++ others ++ tokens.extract place tokens.size

/-- A colon makes the possible key before it a key. Without one it opens a mapping itself. -/
def colon (reading : Reading) : Step :=
  match reading.keys.find? fun key => key.level == reading.level with
  | some key =>
      let others := reading.keys.filter fun other => other.level != reading.level
      let (opened, inserted) :=
        if reading.level == 0 then
          match reading.deepen key.column with
          | some deeper => (deeper, #[Token.blockMapping, Token.key])
          | none => (reading, #[Token.key])
        else (reading, #[Token.key])
      let known := { opened with
        keys := others
        keyAllowed := false
        tokens := insertAt opened.tokens key.place inserted }
      .ok (known.add .value |>.forward 1)
  | none =>
      if reading.level != 0 then reading.plainToken .value 1 false
      else if !reading.keyAllowed then .error .shapeless
      else
        match reading.deepen reading.column with
        | some deeper => (deeper.add .blockMapping).plainToken .value 1 true
        | none => reading.plainToken .value 1 true

/-- What may come right after the name of an anchor. -/
def endsName (character : Char) : Bool :=
  isGap character || character ∈ ['?', ':', ',', ']', '\x7d', '%', '@', '\x60']

/-- An anchor or an alias: its mark and its name. -/
def reference (reading : Reading) (token : String → Token) : Step := do
  let noted ← reading.noteKey
  let name := (noted.rest.drop 1).takeWhile isNamePart
  let after := { noted with keyAllowed := false }.forward (name.length + 1)
  if name.isEmpty || !endsName (after.peek 0) then .error .shapeless
  else pure (after.add (token (String.ofList name)))

/-! Scalars -/

/-- The length of the part of a plain scalar up to a blank or the end of the scalar. -/
def plainLength (reading : Reading) (length : Nat) : List Char → Nat
  | [] => length
  | character :: rest =>
      let next := rest.head?.getD '\x00'
      let inFlow := reading.level != 0
      if isGap character then length
      else if character == ':' &&
          (isGap next || (inFlow && next ∈ [',', '[', ']', '\x7b', '\x7d'])) then length
      else if inFlow && character ∈ [',', '?', '[', ']', '\x7b', '\x7d'] then length
      else plainLength reading (length + 1) rest

/-- Line ends and blanks after the first line end; a document mark ends the scalar. -/
def plainBreaks (reading : Reading) (breaks : List Char) :
    Nat → Option (List Char) × Reading
  | 0 => (some breaks.reverse, reading)
  | fuel + 1 =>
      match reading.rest with
      | ' ' :: _ => plainBreaks (reading.forward 1) breaks fuel
      | character :: _ =>
          if isBreak character then
            let (mark, after) := reading.lineBreak
            if after.isSeparator then (none, after) else plainBreaks after (mark :: breaks) fuel
          else (some breaks.reverse, reading)
      | [] => (some breaks.reverse, reading)

/-- The text of a fold between lines: a lone line end is a blank. -/
def folded (mark : Char) (breaks : List Char) : List Char :=
  (if mark != '\n' then [mark] else if breaks.isEmpty then [' '] else []) ++ breaks

/-- The blanks inside a plain scalar, if it goes on after them. -/
def plainSpaces (fuel : Nat) (reading : Reading) : List Char × Reading :=
  let blanks := reading.rest.takeWhile fun character => character == ' '
  let after := reading.forward blanks.length
  if isBreak (after.peek 0) then
    let (mark, next) := after.lineBreak
    let opened := { next with keyAllowed := true }
    if opened.isSeparator then ([], opened)
    else
      match plainBreaks opened [] fuel with
      | (none, last) => ([], last)
      | (some breaks, last) => (folded mark breaks, last)
  else (blanks, after)

/-- The characters of a plain scalar in reverse; `spaces` stand before the next part. -/
def plainParts (reading : Reading) (read spaces : List Char) (least : Int) :
    Nat → List Char × Reading
  | 0 => (read, reading)
  | fuel + 1 =>
      if reading.peek 0 == '#' then (read, reading)
      else
        let length := plainLength reading 0 reading.rest
        if length == 0 then (read, reading)
        else
          let known := (reading.rest.take length).reverse ++ spaces.reverse ++ read
          let (next, after) :=
            { reading.forward length with keyAllowed := false }.plainSpaces (fuel + 1)
          if next.isEmpty || after.peek 0 == '#' || (after.level == 0 && after.column < least) then
            (known, after)
          else plainParts after known next least fuel

/-- The reading after a plain scalar. The fuel counts the characters that may follow. -/
def plainScalar (fuel : Nat) (reading : Reading) : Step := do
  let noted ← reading.noteKey
  let opened := { noted with keyAllowed := false }
  let (read, after) := plainParts opened [] [] (opened.indent + 1) fuel
  pure (after.add (.scalar true (String.ofList read.reverse)))

def escapes : List (Char × Char) :=
  [('0', '\x00'), ('a', '\x07'), ('b', '\x08'), ('t', '\t'), ('\t', '\t'), ('n', '\n'),
    ('v', '\x0b'), ('f', '\x0c'), ('r', '\r'), ('e', '\x1b'), (' ', ' '), ('\x22', '\x22'),
    ('\x5c', '\x5c'), ('/', '/'), ('N', '\u0085'), ('_', '\u00a0'), ('L', '\u2028'),
    ('P', '\u2029')]

def escapeLengths : List (Char × Nat) := [('x', 2), ('u', 4), ('U', 8)]

/-- The character of a number of so many digits. -/
def numbered (digits : List Char) (length : Nat) : Except Problem Char :=
  match digits.mapM Hex.digitValue? with
  | some values =>
      let code := values.foldl (fun value digit => 16 * value + digit) 0
      if values.length != length then .error .shapeless
      else if code < 0x110000 then .ok (Text.Half.character code)
      else .error (.noCharacter code)
  | none => .error .shapeless

/-- The line ends after one inside quotes; no document mark may stand there. -/
def quotedBreaks (reading : Reading) (breaks : List Char) :
    Nat → Except Problem (List Char × Reading)
  | 0 => .error .shapeless
  | fuel + 1 =>
      if reading.isSeparator then .error .shapeless
      else
        let blanks := (reading.rest.takeWhile fun character =>
          character == ' ' || character == '\t').length
        let after := reading.forward blanks
        if isBreak (after.peek 0) then
          let (mark, next) := after.lineBreak
          quotedBreaks next (mark :: breaks) fuel
        else .ok (breaks.reverse, after)

/-- The characters up to the closing quote, in reverse after `read`. -/
def quotedParts (mark : Char) (reading : Reading) (read : List Char) :
    Nat → Except Problem (List Char × Reading)
  | 0 => .error .shapeless
  | fuel + 1 =>
      let double := mark == '\x22'
      let character := reading.peek 0
      if reading.rest.isEmpty || character == '\x00' then .error .shapeless
      else if character == mark then
        if !double && reading.peek 1 == mark then
          quotedParts mark (reading.forward 2) (mark :: read) fuel
        else .ok (read, reading.forward 1)
      else if double && character == '\x5c' then
        let escape := reading.peek 1
        match escapes.lookup escape, escapeLengths.lookup escape with
        | some meant, _ => quotedParts mark (reading.forward 2) (meant :: read) fuel
        | none, some length => do
            let meant ← numbered ((reading.rest.drop 2).take length) length
            quotedParts mark (reading.forward (2 + length)) (meant :: read) fuel
        | none, none =>
            if isBreak escape then do
              let next := (reading.forward 1).lineBreak.2
              let (breaks, after) ← quotedBreaks next [] (fuel + 1)
              quotedParts mark after (breaks.reverse ++ read) fuel
            else .error .shapeless
      else if character == ' ' || character == '\t' || isBreak character then
        let blanks := reading.rest.takeWhile fun blank => blank == ' ' || blank == '\t'
        let after := reading.forward blanks.length
        if isBreak (after.peek 0) then do
          let (first, next) := after.lineBreak
          let (breaks, last) ← quotedBreaks next [] (fuel + 1)
          quotedParts mark last ((folded first breaks).reverse ++ read) fuel
        else quotedParts mark after (blanks.reverse ++ read) fuel
      else quotedParts mark (reading.forward 1) (character :: read) fuel

/-- The reading after a quoted scalar. The fuel counts the characters that may follow. -/
def quotedScalar (fuel : Nat) (reading : Reading) : Step := do
  let noted ← reading.noteKey
  let opened := { noted with keyAllowed := false }
  let (read, after) ← quotedParts (opened.peek 0) (opened.forward 1) [] fuel
  pure (after.add (.scalar false (String.ofList read.reverse)))

/-! Block scalars -/

/-- What the marks of a block scalar ask for: whether the line ends behind it are all kept or all dropped, and how
much deeper than the collection its lines are. -/
structure Header where
  ends : Option Bool
  depth : Option Nat
  length : Nat

def endsMark? : Char → Option Bool
  | '+' => some true
  | '-' => some false
  | _ => none

def depthMark? (mark : Char) : Option Nat :=
  if mark.isDigit then some (mark.toNat - 48) else none

/-- The header of up to two marks, in either order. -/
def header (first second : Char) : Header :=
  match endsMark? first, depthMark? first with
  | some ends, _ =>
      let depth := depthMark? second
      ⟨some ends, depth, 1 + depth.toList.length⟩
  | none, some depth =>
      let ends := endsMark? second
      ⟨ends, some depth, 1 + ends.toList.length⟩
  | none, none => ⟨none, none, 0⟩

/-- The reading after the line of a header, which may hold a comment. -/
def afterHeader (reading : Reading) : Step :=
  let after := reading.forward (reading.rest.takeWhile isBlank).length
  let comment := if after.peek 0 == '#' then after.rest.takeWhile fun character => !isBreak character else []
  let ended := after.forward comment.length
  if !isGap (reading.peek 0) || reading.peek 0 == '\t' then .error .shapeless
  else if ended.rest.isEmpty then .ok ended
  else if isBreak (ended.peek 0) then .ok ended.lineBreak.2
  else .error .shapeless

/-- The line ends before the first line of a block scalar in reverse, the deepest column that blanks reach, and the
reading after them. -/
def firstColumn (reading : Reading) (breaks : List Char) (deepest : Nat) : Nat → List Char × Nat × Reading
  | 0 => (breaks, deepest, reading)
  | fuel + 1 =>
      let after := reading.forward 1
      if reading.peek 0 == ' ' then firstColumn after breaks (max deepest after.column) fuel
      else if isBreak (reading.peek 0) then
        let (mark, next) := reading.lineBreak
        firstColumn next (mark :: breaks) deepest fuel
      else (breaks, deepest, reading)

/-- The line ends before the next line of a block scalar in reverse, and the reading after its blanks. -/
def blockBreaks (column : Nat) (reading : Reading) (breaks : List Char) : Nat → List Char × Reading
  | 0 => (breaks, reading)
  | fuel + 1 =>
      let blanks := (reading.rest.takeWhile isBlank).length
      let after := reading.forward (min blanks (column - reading.column))
      if isBreak (after.peek 0) then
        let (mark, next) := after.lineBreak
        blockBreaks column next (mark :: breaks) fuel
      else (breaks, after)

/-- A part of a block scalar: its characters, the end of its last line, and the line ends after that, each in
reverse. -/
structure Block where
  read : List Char
  mark : List Char
  breaks : List Char
  reading : Reading

/-- The lines of a block scalar at a column. Where it folds, a line end between two lines of text is a blank, or
nothing if more line ends follow it. -/
def blockLines (folds : Bool) (column : Nat) (block : Block) : Nat → Block
  | 0 => block
  | fuel + 1 =>
      let isText (character : Char) := character != ' ' && character != '\t'
      let line := block.reading.rest.takeWhile fun character => !isBreak character
      let ended := block.reading.forward line.length
      let (mark, next) := if ended.rest.isEmpty then ([], ended) else ended.lineBreak.map (fun mark => [mark]) id
      let (breaks, after) := next.blockBreaks column [] (fuel + 1)
      let read := line.reverse ++ block.breaks ++ block.read
      if after.column == column && !after.rest.isEmpty then
        let joins := folds && mark == ['\n'] && line.head?.any isText && isText (after.peek 0)
        let between := if !joins then mark else if breaks.isEmpty then [' '] else []
        blockLines folds column ⟨between ++ read, mark, breaks, after⟩ fuel
      else ⟨read, mark, breaks, after⟩

/-- The reading after a block scalar. -/
def blockScalar (folds : Bool) (fuel : Nat) (reading : Reading) : Step := do
  let dropped ← reading.dropKey
  let opened := { dropped with keyAllowed := true }.forward 1
  let header := header (opened.peek 0) (opened.peek 1)
  let start ← (opened.forward header.length).afterHeader
  let least := (max (opened.indent + 1) 1).toNat
  let (column, breaks, first) ← match header.depth with
    | some 0 => .error .shapeless
    | some depth => .ok (least + depth - 1, start.blockBreaks (least + depth - 1) [] fuel)
    | none =>
        let (breaks, deepest, first) := start.firstColumn [] 0 fuel
        .ok (max least deepest, breaks, first)
  let block :=
    if first.column == column && !first.rest.isEmpty then blockLines folds column ⟨[], [], breaks, first⟩ fuel
    else ⟨[], [], breaks, first⟩
  let behind := match header.ends with
    | none => block.mark
    | some true => block.breaks ++ block.mark
    | some false => []
  pure (block.reading.add (.scalar false (String.ofList (behind ++ block.read).reverse)))

/-- A plain scalar cannot start with a character that has a meaning of its own. -/
def startsPlain (reading : Reading) : Bool :=
  let character := reading.peek 0
  let special := ['-', '?', ':', ',', '[', ']', '\x7b', '\x7d', '#', '&', '*', '!', '|', '>',
    '\x27', '\x22', '%', '@', '\x60']
  (!isGap character && !special.contains character) ||
    (!isGap (reading.peek 1) &&
      (character == '-' || (reading.level == 0 && (character == '?' || character == ':'))))

/-- The reading after the next token, which starts at the cursor. -/
def next (fuel : Nat) (reading : Reading) : Step :=
  let character := reading.peek 0
  let gapAfter := isGap (reading.peek 1)
  if character == '%' && reading.column == 0 then reading.directive
  else if reading.column == 0 && reading.isMark '-' then reading.documentMark .documentStart
  else if reading.column == 0 && reading.isMark '.' then reading.documentMark .documentEnd
  else if character == '[' then reading.flowStart .flowSequence
  else if character == '\x7b' then reading.flowStart .flowMapping
  else if character == ']' then reading.flowEnd .flowSequenceEnd
  else if character == '\x7d' then reading.flowEnd .flowMappingEnd
  else if character == ',' then reading.plainToken .flowEntry 1 true
  else if character == '-' && gapAfter then reading.blockEntry
  else if character == '?' && (reading.level != 0 || gapAfter) then reading.explicitKey
  else if character == ':' && (reading.level != 0 || gapAfter) then reading.colon
  else if character == '*' then reading.reference .alias
  else if character == '&' then reading.reference .anchor
  else if character == '|' && reading.level == 0 then reading.blockScalar false fuel
  else if character == '>' && reading.level == 0 then reading.blockScalar true fuel
  else if character == '\x27' || character == '\x22' then reading.quotedScalar fuel
  else if reading.startsPlain then reading.plainScalar fuel
  else .error .shapeless

/-- All tokens, if the text has a meaning at all. Tags are refused. The fuel is more than the count of the
characters that follow. -/
def all (reading : Reading) : Nat → Except Problem (List Token)
  | 0 => .error .shapeless
  | fuel + 1 => do
      let there := reading.toNext (fuel + 1)
      let fresh ← there.dropStale
      let settled := fresh.unwind fresh.column fresh.indents
      if settled.rest.isEmpty || settled.peek 0 == '\x00' then
        let closed ← (settled.unwind (-1) settled.indents).dropKey
        pure closed.tokens.toList
      else all (← settled.next (fuel + 1)) fuel

end Reading

/-- Characters that may stand in a document. -/
def isAllowed (character : Char) : Bool :=
  let code := character.toNat
  code == 9 || code == 10 || code == 13 || (0x20 ≤ code && code ≤ 0x7e) || code == 0x85 ||
    (0xa0 ≤ code && code ≤ 0xd7ff) || (0xe000 ≤ code && code ≤ 0xfffd) || 0x10000 ≤ code

/-- The tokens of a text. -/
def tokens (text : String) : Except Problem (List Token) :=
  if text.toList.all isAllowed then
    (Reading.initial text.toList).all (text.length + 1)
  else .error .shapeless

end ChipEight.Yaml
