/-
The tokens of a YAML text.

A key is only known by the colon behind it, when the tokens of the key have been read. The
scanner never goes back: wherever a key may begin it leaves a mark, and when the colon comes
it writes down what the mark stands for. `Scan.tokens` puts the tokens for the marks in at the
end and leaves out the marks that came to nothing.

A possible key is given up at the end of its line and after 1024 characters. In a block it may
be the only thing that can stand there; then giving it up is a fault.

A fault ends the tokens and is the last of them, so that what reads the tokens meets it in its
place: a complaint about an earlier token comes first. From where a key may begin the tokens
are held back until this is settled, and a fault that comes up in the meantime stands in their
place.
-/
import Schemata.Text.Encoding
import Schemata.Yaml.Block
import Schemata.Yaml.Plain

namespace Schemata.Yaml

/-- A token. -/
inductive Token where
  | version (major : Nat)
  | handle (name : String) (stem : String)
  | directive
  | documentStart
  | documentEnd
  | blockSequence
  | blockMapping
  | blockEnd
  | openSequence
  | closeSequence
  | openMapping
  | closeMapping
  | key
  | value
  | blockEntry
  | flowEntry
  | alias (name : String)
  | anchor (name : String)
  | tag (handle : Option String) (suffix : String)
  | scalar (plain : Bool) (text : String)
  | textEnd
  | fault (f : Fault)
deriving DecidableEq, Repr

/-- What a complaint calls a token. -/
def Token.shown : Token → String
  | .version _ => "<directive>"
  | .handle _ _ => "<directive>"
  | .directive => "<directive>"
  | .documentStart => "<document start>"
  | .documentEnd => "<document end>"
  | .blockSequence => "<block sequence start>"
  | .blockMapping => "<block mapping start>"
  | .blockEnd => "<block end>"
  | .openSequence => "["
  | .closeSequence => "]"
  | .openMapping => "\x7b"
  | .closeMapping => "\x7d"
  | .key => "?"
  | .value => ":"
  | .blockEntry => "-"
  | .flowEntry => ","
  | .alias _ => "<alias>"
  | .anchor _ => "<anchor>"
  | .tag _ _ => "<tag>"
  | .scalar _ _ => "<scalar>"
  | .textEnd => "<stream end>"
  | .fault _ => ""

/-- A token, with the place where it begins. -/
abbrev Placed := Token × Mark

/-- A token, or a place where a key may begin. -/
inductive Slot where
  | token (t : Placed)
  | mark (n : Nat) (place : Mark)

/-- A key that may have begun. -/
structure PossibleKey where
  number : Nat
  required : Bool
  mark : Mark
  index : Nat

/-- The state of a scan. -/
structure Scan where
  cursor : Cursor
  /-- How many brackets are open. -/
  depth : Nat := 0
  /-- The column of the innermost block collection. -/
  indent : Int := -1
  /-- The columns of the collections around it. -/
  indents : List Int := []
  /-- A key may begin here. -/
  keyAllowed : Bool := true
  /-- The possible keys, by the number of open brackets. -/
  keys : List (Nat × PossibleKey) := []
  /-- The number of the next mark. -/
  marks : Nat := 0
  /-- What the scan has found, the last first. -/
  slots : List Slot := []
  /-- What is not held back, the last first. -/
  settled : List Slot := []
  /-- The marks that are keys, and whether a mapping begins with the key. -/
  known : List (Nat × Bool) := []

namespace Scan

/-- Adds a token that begins at a mark. -/
def pushAt (s : Scan) (t : Token) (place : Mark) : Scan :=
  { s with slots := .token (t, place) :: s.slots }

/-- Adds a token that begins here. -/
def push (s : Scan) (t : Token) : Scan :=
  s.pushAt t s.cursor.mark

/-- The tokens, with those that the marks stand for. -/
def tokens (s : Scan) : List Placed :=
  s.slots.reverse.flatMap fun slot =>
    match slot with
    | .token t => [t]
    | .mark n place =>
      match s.known.lookup n with
      | some true => [(.blockMapping, place), (.key, place)]
      | some false => [(.key, place)]
      | none => []

/-- The slots before a mark; the last slot is the first of the list. -/
def slotsBefore (n : Nat) : List Slot → List Slot
  | [] => []
  | .mark m _ :: rest => if m == n then rest else slotsBefore n rest
  | _ :: rest => slotsBefore n rest

/-- The earliest of the possible keys. -/
def firstKey? (s : Scan) : Option Nat :=
  (s.keys.map fun k => k.2.number).min?

/-- Holds back no more than what stands behind the earliest of the possible keys. -/
def settle (s : Scan) : Scan :=
  { s with settled := (s.firstKey?.map fun n => slotsBefore n s.slots).getD s.slots }

/-- Ends the tokens with a fault, in the place of those that are held back. -/
def fail (s : Scan) (f : Fault) : Scan :=
  { s with slots := s.settled }.push (.fault f)

/-- Something may not stand here. -/
def misplaced (s : Scan) (what : String) : Fault :=
  .syntaxError (.here (what ++ " are not allowed here") s.cursor.mark)

/-! ## Keys and indentation -/

/-- A key that is given up must not be required. -/
def giveUp (s : Scan) (k : PossibleKey) : Except Fault Unit :=
  if k.required then
    .error
      (s.cursor.complain "while scanning a simple key" k.mark "could not find expected ':'")
  else .ok ()

/-- Gives up the keys that began on another line or too far back. -/
def dropStale (s : Scan) : Except Fault Scan := do
  let isStale (k : PossibleKey) : Bool :=
    k.mark.line != s.cursor.line || 1024 < s.cursor.index - k.index
  let (stale, fresh) := s.keys.partition fun k => isStale k.2
  let _ ← stale.mapM fun k => s.giveUp k.2
  .ok { s with keys := fresh }

/-- Gives up the key among the brackets that are open now. -/
def dropKey (s : Scan) : Except Fault Scan := do
  match s.keys.lookup s.depth with
  | none => .ok s
  | some k =>
    s.giveUp k
    .ok { s with keys := s.keys.filter fun k => k.1 != s.depth }

/-- Notes that a key may begin here. -/
def saveKey (s : Scan) : Except Fault Scan :=
  if s.keyAllowed then do
    let s ← s.dropKey
    let required := s.depth == 0 && s.indent == (s.cursor.column : Int)
    let k : PossibleKey := ⟨s.marks, required, s.cursor.mark, s.cursor.index⟩
    .ok { s with
      keys := (s.depth, k) :: s.keys
      marks := s.marks + 1
      slots := .mark s.marks s.cursor.mark :: s.slots }
  else .ok s

/-- Closes the block collections that are indented more deeply than a column. -/
def unwind (column : Int) : List Int → Scan → Scan
  | outer, s =>
    if s.depth != 0 || s.indent ≤ column then s
    else
      match outer with
      | [] => s
      | i :: rest =>
        unwind column rest (({ s with indent := i, indents := rest }).push .blockEnd)

/-- Closes the block collections that end before a column. -/
def unwindTo (s : Scan) (column : Int) : Scan :=
  unwind column s.indents s

/-- A block collection begins at a column, if it is deeper than the innermost one. -/
def deepen (s : Scan) (column : Nat) : Option Scan :=
  if s.indent < (column : Int) then
    some { s with indents := s.indent :: s.indents, indent := column }
  else none

/-! ## Blanks, comments and directives -/

/-- Moves past blanks, comments and line breaks. After a line break in a block a key may
begin. -/
def skipGap : Nat → Scan → Scan
  | 0, s => s
  | fuel + 1, s =>
    let c := (s.cursor.skipWhile (· == ' ')).skipComment
    match c.lineBreak? with
    | some (_, c) =>
      skipGap fuel { s with cursor := c, keyAllowed := s.keyAllowed || s.depth == 0 }
    | none => { s with cursor := c }

/-- A character of a name. -/
def isNameChar (ch : Char) : Bool :=
  ('0' ≤ ch && ch ≤ '9') || ('A' ≤ ch && ch ≤ 'Z') || ('a' ≤ ch && ch ≤ 'z') ||
    ch == '-' || ch == '_'

/-- A character of a tag. -/
def isTagChar (ch : Char) : Bool :=
  isNameChar ch || "-;/?:@&=+$,_.!~*'()[]%".toList.contains ch

/-- The bytes of percent signs and the digits behind them, up to a place where something else
stands behind a percent sign. -/
def percentBytes : Nat → Cursor → List UInt8 × Cursor × Option Cursor
  | 0, c => ([], c, none)
  | fuel + 1, c =>
    if c.peek != some '%' then ([], c, none)
    else
      match (c.ahead 1).bind Json.Parser.hexDigit?,
        (c.ahead 2).bind Json.Parser.hexDigit? with
      | some a, some b =>
        let (bytes, rest) := percentBytes fuel (c.skip 3)
        ((a * 16 + b).toUInt8 :: bytes, rest)
      | _, _ => ([], c, some c.next)

/-- Something else stands where a digit is expected. -/
def strayPercent (context : String) (start : Mark) (c : Cursor) : Fault :=
  let first := (c.peek.bind Json.Parser.hexDigit?).isNone
  c.complain context start
    ("expected URI escape sequence of 2 hexadecimal numbers, but found " ++
      Complaint.shown (if first then c.peek else c.ahead 1))

/-- The characters of a tag, with bytes that are written by number. -/
def tagChars (kind : String) (start : Mark) : Nat → Cursor → Except Fault (List Char × Cursor)
  | 0, c => .ok ([], c)
  | fuel + 1, c =>
    let (plain, c) := c.span fun ch => isTagChar ch && ch != '%'
    if c.peek == some '%' then
      let context := "while scanning a " ++ kind
      match percentBytes c.rest.length c with
      | (_, _, some stray) => .error (strayPercent context start stray)
      | (bytes, behind, none) =>
        match Text.Encoding.flaw? bytes with
        | some f => .error (c.complain context start f.report)
        | none => do
          let (more, c) ← tagChars kind start fuel behind
          .ok (plain ++ ((String.fromUTF8? ⟨bytes.toArray⟩).getD "").toList ++ more, c)
    else .ok (plain, c)

/-- The characters of a tag, one at least. -/
def tagText (kind : String) (start : Mark) (c : Cursor) : Except Fault (String × Cursor) := do
  let (cs, behind) ← tagChars kind start (c.rest.length + 1) c
  if cs.isEmpty then .error (behind.expected ("while parsing a " ++ kind) start "URI")
  else .ok (String.ofList cs, behind)

/-- A handle: one or two exclamation marks, with a name between two. -/
def tagHandle (kind : String) (start : Mark) (c : Cursor) : Except Fault (String × Cursor) :=
  let context := "while scanning a " ++ kind
  if c.peek != some '!' then .error (c.expected context start "'!'")
  else if c.ahead 1 == some ' ' then .ok ("!", c.next)
  else
    let (name, behind) := c.next.span isNameChar
    if behind.peek == some '!' then .ok ("!" ++ String.ofList name ++ "!", behind.next)
    else .error (behind.expected context start "'!'")

/-- What is being read in a directive. -/
def directiveContext : String := "while scanning a directive"

/-- A whole number of a directive. -/
def directiveNumber (start : Mark) (c : Cursor) : Except Fault (Nat × Cursor) :=
  let (ds, behind) := c.span Text.isDigit
  if ds.isEmpty then .error (c.expected directiveContext start "a digit")
  else if Text.maxDigits < ds.length then .error .badValue
  else .ok (Text.natOfDigits ds, behind)

/-- The place behind something that a blank or the end of the line must follow. -/
def closed (c : Cursor) (context : String) (start : Mark) (what : String) :
    Except Fault Cursor :=
  if c.atSpaceOrEnd then .ok c else .error (c.expected context start what)

/-- What a directive of some name says. -/
def directiveBody (start : Mark) (name : String) (c : Cursor) :
    Except Fault (Token × Cursor) :=
  match name with
  | "YAML" => do
    let (major, c) ← directiveNumber start (c.skipWhile (· == ' '))
    match c.drop? '.' with
    | none => .error (c.expected directiveContext start "a digit or '.'")
    | some c => do
      let (_, c) ← directiveNumber start c
      let c ← closed c directiveContext start "a digit or ' '"
      .ok (.version major, c)
  | "TAG" => do
    let (handle, c) ← tagHandle "directive" start (c.skipWhile (· == ' '))
    if c.peek != some ' ' then .error (c.expected directiveContext start "' '")
    else
      let (stem, c) ← tagText "directive" start (c.skipWhile (· == ' '))
      let c ← closed c directiveContext start "' '"
      .ok (.handle handle stem, c)
  | _ => .ok (.directive, c.skipWhile fun ch => !isBreak ch)

/-- A directive from its percent sign. -/
def directive (c : Cursor) : Except Fault (Token × Cursor) := do
  let start := c.mark
  let (name, c) := c.next.span isNameChar
  if name.isEmpty then
    .error (c.expected directiveContext start "alphabetic or numeric character")
  else
    let c ← closed c directiveContext start "alphabetic or numeric character"
    let (token, c) ← directiveBody start (String.ofList name) c
    let c := (c.skipWhile (· == ' ')).skipComment
    if c.atLineEnd then .ok (token, c.skipBreak)
    else .error (c.expected directiveContext start "a comment or a line break")

/-! ## Tokens -/

/-- A name after its sign, which must be followed by a gap or a sign. -/
def name (kind : String) (c : Cursor) : Except Fault (String × Cursor) :=
  let (cs, behind) := c.next.span isNameChar
  let closes :=
    match behind.peek with
    | none => true
    | some ch => isBlank ch || isBreak ch || "?:,]\x7d%@\x60".toList.contains ch
  if cs.isEmpty || !closes then
    .error (behind.expected ("while scanning an " ++ kind) c.mark
      "alphabetic or numeric character")
  else .ok (String.ofList cs, behind)

/-- A tag: in full between angles, by a handle, or a lone exclamation mark. -/
def tag (c : Cursor) : Except Fault (Token × Cursor) := do
  let start := c.mark
  let (token, c) ← match c.ahead 1 with
    | some '<' => do
      let (suffix, c) ← tagText "tag" start (c.skip 2)
      match c.drop? '>' with
      | some c => .ok (Token.tag none suffix, c)
      | none => .error (c.expected "while parsing a tag" start "'>'")
    | _ =>
      if c.isGap 1 then .ok (Token.tag none "!", c.next)
      else do
        let word := c.next.rest.takeWhile fun ch => ch != ' ' && !isBreak ch
        let (handle, c) ←
          if word.contains '!' then tagHandle "tag" start c else .ok ("!", c.next)
        let (suffix, c) ← tagText "tag" start c
        .ok (Token.tag (some handle) suffix, c)
  let c ← closed c "while scanning a tag" start "' '"
  .ok (token, c)

/-- A plain scalar may begin here. -/
def startsPlain (s : Scan) : Bool :=
  match s.cursor.peek with
  | none => false
  | some ch =>
    (!isBlank ch && !isBreak ch && !"-?:,[]\x7b\x7d#&*!|>'\"%@\x60".toList.contains ch) ||
      (!s.cursor.isGap 1 && (ch == '-' || (s.depth == 0 && (ch == '?' || ch == ':'))))

/-- A token of one character, after which a key may begin or not. -/
def sign (s : Scan) (t : Token) (keyAllowed : Bool) : Scan :=
  { s.push t with cursor := s.cursor.next, keyAllowed }

/-- A mark between documents. -/
def separator (s : Scan) (t : Token) : Except Fault Scan := do
  let s ← (s.unwindTo (-1)).dropKey
  .ok { s.push t with cursor := s.cursor.skip 3, keyAllowed := false }

/-- A bracket opens. -/
def openBracket (s : Scan) (t : Token) : Except Fault Scan := do
  let s ← s.saveKey
  .ok { s.sign t true with depth := s.depth + 1 }

/-- A bracket closes. Where none is open it ends the tokens, for nothing that reads them gets
past it. -/
def closeBracket (s : Scan) (t : Token) : Except Fault Scan := do
  let s ← s.dropKey
  if s.depth == 0 then .ok { s.push t with cursor := { s.cursor with rest := [] } }
  else .ok { s.sign t false with depth := s.depth - 1 }

/-- An entry of a block sequence. -/
def blockEntry (s : Scan) : Except Fault Scan :=
  if s.depth == 0 && !s.keyAllowed then .error (s.misplaced "sequence entries")
  else do
    let s :=
      if s.depth == 0 then
        match s.deepen s.cursor.column with
        | some s => s.push .blockSequence
        | none => s
      else s
    let s ← s.dropKey
    .ok (s.sign .blockEntry true)

/-- A key that is marked as one. -/
def explicitKey (s : Scan) : Except Fault Scan :=
  if s.depth == 0 && !s.keyAllowed then .error (s.misplaced "mapping keys")
  else do
    let s :=
      if s.depth == 0 then
        match s.deepen s.cursor.column with
        | some s => s.push .blockMapping
        | none => s
      else s
    let s ← s.dropKey
    .ok (s.sign .key (s.depth == 0))

/-- A colon: it makes a key of what may have begun as one, or follows a key that is marked. -/
def valueSign (s : Scan) : Except Fault Scan :=
  match s.keys.lookup s.depth with
  | some k =>
    let s := { s with keys := s.keys.filter fun k => k.1 != s.depth }
    let (s, opens) :=
      if s.depth == 0 then
        match s.deepen k.mark.column with
        | some s => (s, true)
        | none => (s, false)
      else (s, false)
    .ok ({ s with known := (k.number, opens) :: s.known }.sign .value false)
  | none =>
    if s.depth == 0 && !s.keyAllowed then .error (s.misplaced "mapping values")
    else do
      let s :=
        if s.depth == 0 then
          match s.deepen s.cursor.column with
          | some s => s.push .blockMapping
          | none => s
        else s
      let s ← s.dropKey
      .ok (s.sign .value (s.depth == 0))

/-- A token that may begin a key and after which none may begin. -/
def part (s : Scan) (read : Cursor → Except Fault (Token × Cursor)) : Except Fault Scan := do
  let s ← s.saveKey
  let (t, c) ← read s.cursor
  .ok { s.push t with cursor := c, keyAllowed := false }

/-- A block scalar. -/
def block (s : Scan) (fold : Bool) : Except Fault Scan := do
  let s ← s.dropKey
  let (text, c) ← Block.scan fold s.indent s.cursor
  .ok { s.push (.scalar false text) with cursor := c, keyAllowed := true }

/-- A plain scalar. -/
def plain (s : Scan) : Except Fault Scan := do
  let s ← s.saveKey
  let (text, c, broken) := Plain.scan (s.depth != 0) (s.indent + 1) s.cursor
  .ok { s.push (.scalar true text) with cursor := c, keyAllowed := broken }

/-- One token: what begins with a character here. -/
def fetch (s : Scan) (ch : Char) : Except Fault Scan :=
  let c := s.cursor
  if ch == '%' && c.column == 0 then do
    let s ← (s.unwindTo (-1)).dropKey
    let (t, c) ← directive s.cursor
    .ok { s.push t with cursor := c, keyAllowed := false }
  else if c.column == 0 && c.atMark "---" then s.separator .documentStart
  else if c.column == 0 && c.atMark "..." then s.separator .documentEnd
  else if ch == '[' then s.openBracket .openSequence
  else if ch == '\x7b' then s.openBracket .openMapping
  else if ch == ']' then s.closeBracket .closeSequence
  else if ch == '\x7d' then s.closeBracket .closeMapping
  else if ch == ',' then do
    let s ← s.dropKey
    .ok (s.sign .flowEntry true)
  else if ch == '-' && c.isGap 1 then s.blockEntry
  else if ch == '?' && (s.depth != 0 || c.isGap 1) then s.explicitKey
  else if ch == ':' && (s.depth != 0 || c.isGap 1) then s.valueSign
  else if ch == '*' then s.part fun c => do
    let (n, c) ← name "alias" c
    .ok (.alias n, c)
  else if ch == '&' then s.part fun c => do
    let (n, c) ← name "anchor" c
    .ok (.anchor n, c)
  else if ch == '!' then s.part tag
  else if ch == '|' && s.depth == 0 then s.block false
  else if ch == '>' && s.depth == 0 then s.block true
  else if ch == '\'' || ch == '"' then s.part fun c => do
    let (text, c) ← Quoted.scan ch c
    .ok (.scalar false text, c)
  else if s.startsPlain then s.plain
  else
    .error (.syntaxError (.problem (some "while scanning for the next token") none
      ("found character " ++ Complaint.shown (some ch) ++
        " that cannot start any token") c.mark))

/-- One step: moves past blanks to the next token and reads it, or ends the text. The second
part of the result says that the text has ended. -/
def step (s : Scan) : Except Fault (Scan × Bool) := do
  let s ← (skipGap (s.cursor.rest.length + 1) s).dropStale
  let s := s.unwindTo s.cursor.column
  match s.cursor.peek with
  | none => do
    let s ← (s.unwindTo (-1)).dropKey
    .ok (s.push .textEnd, true)
  | some ch => do
    let s ← s.fetch ch
    .ok (s, false)

/-- Scans to the end of the text, or to the first fault. -/
def run : Nat → Scan → Scan
  | 0, s => s.push .textEnd
  | fuel + 1, s =>
    match s.dropStale with
    | .error f => s.fail f
    | .ok s =>
      let s := s.settle
      match s.step with
      | .error f => s.fail f
      | .ok (s, true) => s
      | .ok (s, false) => run fuel s

end Scan

/-- The tokens of a text; the last one is its end or a fault. -/
def Token.scan (text : String) : List Placed :=
  let cs := text.toList
  match cs.findIdx? fun ch => !isAllowed ch with
  | some i =>
    [(.fault (.syntaxError (.character ((cs[i]?.map Char.toNat).getD 0) i)), ⟨0, 0⟩)]
  | none =>
    let c : Cursor := ⟨cs, 0, 0, 0⟩
    let c := if c.peek == some '\uFEFF' then c.next else c
    (Scan.run (cs.length + 2) { cursor := c }).tokens

end Schemata.Yaml
