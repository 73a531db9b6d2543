/-
This file writes documents as YAML: mappings sorted by key, an entry or an item on each line, and each
scalar in the plainest style that reads back as the same value. Lines are broken at blanks once they
pass eighty columns. What stands in several places is written in the first of them, and named in the others.
-/

import ChipEight.Double.Shortest
import ChipEight.Value.Document
import ChipEight.Value.Order
import ChipEight.Yaml.Reader

namespace ChipEight.Yaml

/-! Styles of scalars -/

inductive Style where
  | plain
  | single
  | double
  deriving DecidableEq, Repr

/-- What a text looks like, as far as its style depends on it. -/
structure Shape where
  indicators : Bool
  lineBreaks : Bool
  special : Bool
  edgeSpace : Bool
  breakThenSpace : Bool
  spaceThenBreak : Bool

def isLineBreak (character : Char) : Bool :=
  character ∈ ['\n', '\u0085', '\u2028', '\u2029']

/-- A character at the start of a text that a plain scalar cannot have there. -/
def startsIndicator (first : Char) (gapAfter : Bool) : Bool :=
  first ∈ ['#', ',', '[', ']', '\x7b', '\x7d', '&', '*', '!', '|', '>', '\x27', '\x22', '%', '@',
    '\x60'] || (gapAfter && first ∈ ['?', ':', '-'])

/-- A colon before a gap or a number sign after one. -/
def innerIndicator : List Char → Bool
  | before :: character :: rest =>
      (character == ':' && (rest.head?.all Reading.isGap)) ||
        (character == '#' && Reading.isGap before) || innerIndicator (character :: rest)
  | _ => false

def isPlainCharacter (character : Char) : Bool :=
  character == '\n' || (0x20 ≤ character.toNat && character.toNat ≤ 0x7e)

/-- One character comes right after another somewhere. -/
def hasPair (first second : Char → Bool) : List Char → Bool
  | character :: next :: rest =>
      (first character && second next) || hasPair first second (next :: rest)
  | _ => false

def shapeOf (text : List Char) : Shape :=
  let isSpace (character : Char) := character == ' '
  let marks := ['-', '-', '-'].isPrefixOf text || ['.', '.', '.'].isPrefixOf text
  let edge (character : Char) := isSpace character || isLineBreak character
  { indicators := marks ||
      (match text with
        | first :: rest => startsIndicator first (rest.head?.all Reading.isGap)
        | [] => false) || innerIndicator text
    lineBreaks := text.any isLineBreak
    special := text.any fun character => !isPlainCharacter character
    edgeSpace := text.head?.any edge || text.getLast?.any edge
    breakThenSpace := hasPair isLineBreak isSpace text
    spaceThenBreak := hasPair isSpace isLineBreak text }

/-- The style of a text. `isPlain` tells whether it reads back as the same value without quotes, and
`asKey` whether it has to stand on one line. -/
def styleOf (text : List Char) (isPlain asKey : Bool) : Style :=
  let shape := shapeOf text
  let broken := shape.breakThenSpace || shape.spaceThenBreak || shape.special
  if text.isEmpty then (if isPlain && !asKey then .plain else .single)
  else if isPlain && !broken && !shape.edgeSpace && !shape.lineBreaks && !shape.indicators then
    .plain
  else if !broken && !(asKey && shape.lineBreaks) then .single
  else .double

/-! Text of scalars -/

/-- Text as it is written: what stands there, in reverse, the column after it, and the marks of the lists and
mappings that are written. -/
structure Written where
  characters : List Char
  column : Nat
  marks : List Nat

namespace Written

def put (written : Written) (text : List Char) : Written :=
  ⟨text.reverse ++ written.characters, written.column + text.length, written.marks⟩

/-- A new line with blanks before its text. -/
def newLine (written : Written) (indent : Nat) : Written :=
  ⟨List.replicate indent ' ' ++ '\n' :: written.characters, indent, written.marks⟩

end Written

/-- Lines are broken once they are longer than this. -/
def bestWidth : Nat := 80

/-- The runs of characters that are alike: blanks, line ends, or others. -/
def runs (kind : Char → Nat) : List Char → List (List Char)
  | [] => []
  | character :: rest =>
      match runs kind rest with
      | (next :: run) :: others =>
          if kind character == kind next then (character :: next :: run) :: others
          else [character] :: (next :: run) :: others
      | others => [character] :: others

def kindOf (character : Char) : Nat :=
  if character == ' ' then 1 else if isLineBreak character then 2 else 0

/-- A plain text. A single blank in a line that is too long becomes a line break. -/
def writePlain (fold : Bool) (indent : Nat) (written : Written) (text : List Char) : Written :=
  (runs kindOf text).foldl
    (fun current run =>
      if run == [' '] && bestWidth < current.column && fold then current.newLine indent
      else current.put run)
    written

/-- The line ends inside single quotes: the first is written twice if it is a plain one. -/
def writeBreaks (indent : Nat) (written : Written) (run : List Char) : Written :=
  let start := if run.head? == some '\n' then written.newLine 0 else written
  let broken := run.foldl
    (fun current character =>
      if character == '\n' then current.newLine 0
      else ⟨character :: current.characters, 0, current.marks⟩)
    start
  broken.put (List.replicate indent ' ')

/-- A text between single quotes, which are doubled inside. -/
def writeSingle (fold : Bool) (indent : Nat) (written : Written) (text : List Char) : Written :=
  let doubled (run : List Char) := run.flatMap fun character =>
    if character == '\x27' then ['\x27', '\x27'] else [character]
  let pieces := runs kindOf text
  let last := pieces.length - 1
  let body := pieces.zipIdx.foldl
    (fun current (run, index) =>
      match run.head?.map kindOf with
      | some 1 =>
          if run == [' '] && bestWidth < current.column && fold && index != 0 && index != last then
            current.newLine indent
          else current.put run
      | some 2 => writeBreaks indent current run
      | _ => current.put (doubled run))
    (written.put ['\x27'])
  body.put ['\x27']

def doubleEscapes : List (Char × Char) :=
  [('\x00', '0'), ('\x07', 'a'), ('\x08', 'b'), ('\t', 't'), ('\n', 'n'), ('\x0b', 'v'),
    ('\x0c', 'f'), ('\r', 'r'), ('\x1b', 'e'), ('\x22', '\x22'), ('\x5c', '\x5c'),
    ('\u0085', 'N'), ('\u00a0', '_'), ('\u2028', 'L'), ('\u2029', 'P')]

/-- The form of a character that cannot stand between double quotes. -/
def escaped? (character : Char) : Option (List Char) :=
  match doubleEscapes.lookup character with
  | some letter => some ['\x5c', letter]
  | none =>
      let code := Text.Half.code character
      if 0x20 ≤ code && code ≤ 0x7e then none
      else if code ≤ 0xff then some (['\x5c', 'x'] ++ (Hex.padded 2 code).toList)
      else if code ≤ 0xffff then some (['\x5c', 'u'] ++ (Hex.padded 4 code).toList)
      else some (['\x5c', 'U'] ++ (Hex.padded 8 code).toList)

/-- The text breaks at the cursor: a mark, a new line, and a mark again before a blank. -/
def breakDouble (indent : Nat) (written : Written) (next : Option Char) : Written :=
  let broken := (written.put ['\x5c']).newLine indent
  if next == some ' ' then broken.put ['\x5c'] else broken

/-- The rest of a text between double quotes. `held` are the characters in reverse that are read and
not yet written, and `place` is that of the next one in a text of `length`. -/
def writeDoubleFrom (fold : Bool) (indent length : Nat) (written : Written) (held : List Char)
    (place : Nat) : List Char → Written
  | [] => written.put held.reverse
  | character :: rest =>
      let inside := fold && 0 < place && place + 1 < length
      match escaped? character with
      | some letters =>
          let current := (written.put held.reverse).put letters
          let broken :=
            if inside && bestWidth + 1 < current.column then breakDouble indent current rest.head?
            else current
          writeDoubleFrom fold indent length broken [] (place + 1) rest
      | none =>
          if inside && (character == ' ' || held.isEmpty) &&
              bestWidth < written.column + held.length then
            let broken := breakDouble indent (written.put held.reverse) (some character)
            writeDoubleFrom fold indent length broken [character] (place + 1) rest
          else writeDoubleFrom fold indent length written (character :: held) (place + 1) rest

def writeDouble (fold : Bool) (indent : Nat) (written : Written) (text : List Char) : Written :=
  (writeDoubleFrom fold indent text.length (written.put ['\x22']) [] 0 text).put ['\x22']

/-! Values -/

/-- A number with an exponent has a point. -/
def floatText (number : Double) : String :=
  if number.isNan then ".nan"
  else if !number.isFinite then (if number.isNegative then "-.inf" else ".inf")
  else
    let text := number.text
    if !text.contains '.' && text.contains 'e' then text.replace "e" ".0e" else text

/-- The text of a scalar, whether it reads back without quotes, and the length of its tag. -/
structure ScalarText where
  text : List Char
  isPlain : Bool
  tagLength : Nat

def scalarOf : Key → ScalarText
  | .null => ⟨"null".toList, true, 6⟩
  | .bool flag => ⟨(if flag then "true" else "false").toList, true, 6⟩
  | .int number => ⟨(toString number).toList, true, 5⟩
  | .float number => ⟨(floatText number).toList, true, 7⟩
  | .date day => ⟨day.text.toList, true, 11⟩
  | .moment time => ⟨time.text.toList, true, 11⟩
  | .text characters => ⟨characters.toList, isPlainText characters, 5⟩

/-- A scalar on a line; `asKey` keeps it there. -/
def writeScalar (asKey : Bool) (indent : Nat) (written : Written) (scalar : ScalarText) : Written :=
  match styleOf scalar.text scalar.isPlain asKey with
  | .plain => writePlain (!asKey) indent written scalar.text
  | .single => writeSingle (!asKey) indent written scalar.text
  | .double => writeDouble (!asKey) indent written scalar.text

/-- A key that is short and has a line of its own needs no mark. -/
def isSimpleKey (scalar : ScalarText) : Bool :=
  scalar.tagLength + scalar.text.length < 128 && !scalar.text.isEmpty &&
    !scalar.text.any isLineBreak

/-- Entries that are sorted, with one more among them. -/
def insertEntry {A : Type} (entry : Key × A) : List (Key × A) → List (Key × A)
  | [] => [entry]
  | other :: rest =>
      if (entry.1.atMost? other.1).getD true then entry :: other :: rest else other :: insertEntry entry rest

/-- Entries are sorted if each two of their keys have an order. -/
def sortedEntries {A : Type} (entries : List (Key × A)) : List (Key × A) :=
  if Key.areOrdered (Entries.names entries) then entries.foldr insertEntry [] else entries

mutual
/-- The document with all entries sorted. -/
def sorted : Document → Document
  | .scalar key => .scalar key
  | .list mark items => .list mark (sortedItems items)
  | .mapping mark entries => .mapping mark (sortedEntries (sortedParts entries))

def sortedItems : List Document → List Document
  | [] => []
  | item :: rest => sorted item :: sortedItems rest

def sortedParts : List (Key × Document) → List (Key × Document)
  | [] => []
  | (key, part) :: rest => (key, sorted part) :: sortedParts rest
end

/-! Names of what stands in several places -/

/-- The marks that were met so far, and those of them that were met again. -/
structure Naming where
  met : List Nat
  named : List Nat

namespace Naming

def isMet (naming : Naming) (mark : Option Nat) : Bool :=
  mark.any naming.met.contains

def meets (naming : Naming) (mark : Option Nat) : Naming :=
  { naming with met := mark.toList ++ naming.met }

/-- Marks are named in the order in which they are met again. -/
def meetsAgain (naming : Naming) (mark : Option Nat) : Naming :=
  { naming with named := naming.named ++ mark.toList.filter fun number => !naming.named.contains number }

mutual
/-- Goes through a document, but only once through what has a mark. -/
def visit (naming : Naming) : Document → Naming
  | .scalar _ => naming
  | .list mark items =>
      if naming.isMet mark then naming.meetsAgain mark else visitItems (naming.meets mark) items
  | .mapping mark entries =>
      if naming.isMet mark then naming.meetsAgain mark else visitEntries (naming.meets mark) entries

def visitItems (naming : Naming) : List Document → Naming
  | [] => naming
  | item :: rest => visitItems (visit naming item) rest

def visitEntries (naming : Naming) : List (Key × Document) → Naming
  | [] => naming
  | (_, part) :: rest => visitEntries (visit naming part) rest
end

end Naming

/-- The name of the object that is named at a place. -/
def nameText (place : Nat) : List Char :=
  let digits := (toString (place + 1)).toList
  ['i', 'd'] ++ List.replicate (3 - digits.length) '0' ++ digits

/-- What is written before a list or a mapping: its name, if it has one, and whether nothing follows, as it is
written elsewhere. -/
structure Reference where
  written : Written
  isNamed : Bool
  isElsewhere : Bool

def refer (names : List Nat) (mark : Option Nat) (written : Written) : Reference :=
  match mark.bind fun number => (names.idxOf? number).map (number, ·) with
  | none => ⟨written, false, false⟩
  | some (number, place) =>
      if written.marks.contains number then ⟨written.put ([' ', '*'] ++ nameText place), true, true⟩
      else
        let named := written.put ([' ', '&'] ++ nameText place)
        ⟨{ named with marks := number :: named.marks }, true, false⟩

/-! Lines -/

/-- Where a collection stands: after the colon of a key on its line, after a dash, or after a colon that has a line
of its own. -/
inductive Setting where
  | afterKey
  | afterDash
  | afterColon
  deriving DecidableEq, Repr

/-- The column of a line and blanks up to the indent of the next entry, which may be on a line that is begun. -/
def align (indent : Nat) (onLine : Bool) (written : Written) : Written :=
  if onLine then written.put (List.replicate (indent - written.column) ' ') else written.newLine indent

mutual
/-- A document after a key, a dash or another mark that stands at the column `indent`. -/
def writeDocument (names : List Nat) (indent : Nat) (setting : Setting) (written : Written) : Document → Written
  | .scalar key => writeScalar false (indent + 2) (written.put [' ']) (scalarOf key)
  | .list mark items =>
      let reference := refer names mark written
      if reference.isElsewhere then reference.written
      else if items.isEmpty then reference.written.put [' ', '[', ']']
      else
        let level := setting == .afterKey || (setting == .afterColon && reference.isNamed)
        writeItems names (if level then indent else indent + 2) (setting != .afterKey && !reference.isNamed)
          reference.written items
  | .mapping mark entries =>
      let reference := refer names mark written
      if reference.isElsewhere then reference.written
      else if entries.isEmpty then reference.written.put [' ', '\x7b', '\x7d']
      else
        writeEntries names (indent + 2) (setting != .afterKey && !reference.isNamed) reference.written entries

/-- The items of a sequence, whose dashes stand at the column `indent`. -/
def writeItems (names : List Nat) (indent : Nat) (onLine : Bool) (written : Written) : List Document → Written
  | [] => written
  | item :: rest =>
      let line := (align indent onLine written).put ['-']
      writeItems names indent false (writeDocument names indent .afterDash line item) rest

/-- The entries of a mapping, whose keys stand at the column `indent`. -/
def writeEntries (names : List Nat) (indent : Nat) (onLine : Bool) (written : Written) :
    List (Key × Document) → Written
  | [] => written
  | (key, part) :: rest =>
      let line := align indent onLine written
      let name := scalarOf key
      let entry :=
        if isSimpleKey name then
          writeDocument names indent .afterKey ((writeScalar true indent line name).put [':']) part
        else
          let named := writeScalar false (indent + 2) (line.put ['?', ' ']) name
          writeDocument names indent .afterColon ((named.newLine indent).put [':']) part
      writeEntries names indent false entry rest
end

/-- Collections and what they hold may be this deep inside one another to be written, on a host whose calls may be a
thousand deep: each collection takes three of them. -/
def deepestWritten : Nat := 328

/-- The text of a mapping. -/
def write (entries : List (Key × Document)) : String :=
  if entries.isEmpty then "\x7b\x7d\n"
  else
    let ordered := sortedEntries (sortedParts entries)
    let names := (Naming.mk [] []).visitEntries ordered
    let written := writeEntries names.named 0 true ⟨[], 0, []⟩ ordered
    String.ofList (('\n' :: written.characters).reverse)

end ChipEight.Yaml
