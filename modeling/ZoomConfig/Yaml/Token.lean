import ZoomConfig.Json.Reader
import ZoomConfig.Yaml.Cursor
/-!
Tags, and the tokens of a text.

A tag is written as a handle and a suffix; `%TAG` lines in front of a document say what a handle
stands for. Percent escapes may spell any octets, so a tag is a list of octets. Indentation and
brackets are tokens like any other: a collection in a block begins and ends with tokens that are not
written in the text, and so does every key.
-/
namespace ZoomConfig.Yaml

/-! ## Tags and directives -/

/-- Text as octets. -/
abbrev Octets := List UInt8

/-- The octets of characters. -/
def octets (cs : List Char) : Octets := cs.flatMap String.utf8EncodeChar

/-- A tag as written. -/
structure TagName where
  handle : Octets
  suffix : Octets
  deriving DecidableEq, Repr

/-- A line in front of a document. -/
inductive Directive where
  | version (major minor : Nat)
  | tag (handle meaning : Octets)
  deriving DecidableEq, Repr

/-- A character of a tag that stands for itself. -/
def isTagChar (c : Char) : Bool := isWordChar c || ";/?:@&=+$.!~*'()".toList.contains c

/-- How many octets a character has that begins with this octet. -/
def octetCount? (first : Nat) : Option Nat :=
  if first < 0x80 then some 1
  else if first < 0xC0 then none
  else if first < 0xE0 then some 2
  else if first < 0xF0 then some 3
  else if first < 0xF8 then some 4
  else none

/-- An escape of one octet, and what follows. -/
def readOctet? : List Char → Option (Nat × List Char)
  | '%' :: a :: b :: rest => do
    let a ← Json.hexValue? a
    let b ← Json.hexValue? b
    return (16 * a + b, rest)
  | _ => none

/-- The octets of a character behind its first one. -/
def readOctets? : Nat → List Char → Option (List Nat × List Char)
  | 0, cs => some ([], cs)
  | count + 1, cs => do
    let (octet, cs) ← readOctet? cs
    if octet < 0x80 ∨ 0xC0 ≤ octet then none
    else
      let (more, cs) ← readOctets? count cs
      return (octet :: more, cs)

/-- The octets of a run of tag characters and escapes, and the place behind it. In angle brackets
and in directives commas and square brackets belong to a tag. -/
def readTagOctets (wide : Bool) : Nat → Cursor → Option (Octets × Cursor)
  | 0, _ => none
  | fuel + 1, c =>
    match c.rest with
    | [] => some ([], c)
    | ch :: _ => do
      if ch = '%' then
        let (first, rest) ← readOctet? c.rest
        let count ← octetCount? first
        let (more, _) ← readOctets? (count - 1) rest
        let (text, next) ← readTagOctets wide fuel (c.advance (3 * count))
        return ((first :: more).map UInt8.ofNat ++ text, next)
      else if isTagChar ch || (wide && ",[]".toList.contains ch) then
        let (text, next) ← readTagOctets wide fuel (c.advance 1)
        return (octets [ch] ++ text, next)
      else return ([], c)

/-- Reads tag characters behind the characters of the tag that are already known, of which there
has to be one in all. A zero octet ends a tag. -/
def tagOctets? (wide : Bool) (known : List Char) (c : Cursor) : Option (Octets × Cursor) := do
  let (text, next) ← readTagOctets wide (c.left + 1) c
  if known.isEmpty ∧ next.index = c.index then none
  else return ((octets (known.drop 1) ++ text).takeWhile (· ≠ 0), next)

/-- An exclamation mark, word characters and perhaps another exclamation mark. -/
def readHandle? (c : Cursor) : Option (List Char × Cursor) :=
  if c.rest.head? = some '!' then
    let (word, next) := (c.advance 1).span isWordChar
    if next.rest.head? = some '!' then some ('!' :: word ++ ['!'], next.advance 1)
    else some ('!' :: word, next)
  else none

/-- Is it a handle with an exclamation mark at both ends? -/
def isNamedHandle (handle : List Char) : Bool :=
  handle.length ≥ 2 && handle.getLast? == some '!'

/-- The tag at a place, and the place behind it. Within brackets a comma may follow, else a gap has
to. A lone exclamation mark is a suffix without a handle, and so is a tag in angle brackets. -/
def TagName.read? (inFlow : Bool) (c : Cursor) : Option (TagName × Cursor) := do
  let (tag, next) ←
    if c.rest[1]? = some '<' then do
      let (suffix, next) ← tagOctets? true [] (c.advance 2)
      if next.rest.head? = some '>' then some (TagName.mk [] suffix, next.advance 1) else none
    else do
      let (handle, next) ← readHandle? c
      if isNamedHandle handle then
        let (suffix, next) ← tagOctets? false [] next
        return (TagName.mk (octets handle) suffix, next)
      else
        let (suffix, next) ← tagOctets? false handle next
        let bang := octets ['!']
        return (if suffix.isEmpty then TagName.mk [] bang else TagName.mk bang suffix, next)
  if atGap next.rest || (inFlow && next.rest.head? == some ',') then some (tag, next) else none

/-- A number of at most nine digits. -/
def versionNumber? (c : Cursor) : Option (Nat × Cursor) :=
  let (digits, next) := c.span Char.isDigit
  if digits.isEmpty ∨ 9 < digits.length then none
  else some (digits.foldl (fun n d => 10 * n + (d.toNat - 48)) 0, next)

/-- The value of a `%YAML` line. -/
def readVersion? (c : Cursor) : Option (Directive × Cursor) := do
  let (major, c) ← versionNumber? (c.skip isBlank)
  if c.rest.head? = some '.' then
    let (minor, c) ← versionNumber? (c.advance 1)
    return (.version major minor, c)
  else none

/-- The value of a `%TAG` line. -/
def readMeaning? (c : Cursor) : Option (Directive × Cursor) := do
  let (handle, c) ← readHandle? (c.skip isBlank)
  if ¬ isNamedHandle handle ∧ handle.length ≠ 1 then none
  else if c.rest.head?.any isBlank then
    let (meaning, next) ← tagOctets? true [] (c.skip isBlank)
    if atGap next.rest then some (.tag (octets handle) meaning, next) else none
  else none

/-- The directive at a place, which is at a percent sign, and the line behind it. -/
def Directive.read? (c : Cursor) : Option (Directive × Cursor) := do
  let (name, c) := (c.advance 1).span isWordChar
  if ¬ atGap c.rest then none
  else
    let (directive, c) ←
      if name = "YAML".toList then readVersion? c
      else if name = "TAG".toList then readMeaning? c
      else none
    let next ← c.endOfLine?
    return (directive, next)

/-- What the handles mean that no directive gives a meaning. -/
def standardHandles : List (Octets × Octets) :=
  [(octets ['!'], octets ['!']), (octets ['!', '!'], octets "tag:yaml.org,2002:".toList)]

/-- The meanings of handles that the directives of a document give. At most one directive may state
a version, 1.1 or 1.2, and no handle may have two meanings. -/
def meanings? : List Directive → Option (List (Octets × Octets))
  | [] => some []
  | .version major minor :: rest =>
    if major = 1 ∧ (minor = 1 ∨ minor = 2) ∧ rest.all (fun | .version .. => false | _ => true) then
      meanings? rest
    else none
  | .tag handle meaning :: rest => do
    let others ← meanings? rest
    if others.any (·.1 == handle) then none else return (handle, meaning) :: others

/-- The octets of a tag. A handle without a meaning is an error. -/
def TagName.resolve? (meanings : List (Octets × Octets)) (tag : TagName) : Option Octets :=
  if tag.handle.isEmpty then some tag.suffix
  else ((meanings ++ standardHandles).lookup tag.handle).map (· ++ tag.suffix)

/-! ## Tokens -/

/-- A scalar as written: its text, and whether it stands without quotes on its line. -/
structure Scalar where
  text : String
  isPlain : Bool
  deriving DecidableEq, Repr

/-- A token. -/
inductive Token where
  | directive (d : Directive)
  | documentStart
  | documentEnd
  | blockSequenceStart
  | blockMappingStart
  | blockEnd
  | flowSequenceStart
  | flowSequenceEnd
  | flowMappingStart
  | flowMappingEnd
  | blockEntry
  | flowEntry
  | key
  | value
  | alias (name : String)
  | anchor (name : String)
  | tag (name : TagName)
  | scalar (s : Scalar)
  deriving DecidableEq, Repr

end ZoomConfig.Yaml
