import GlobalTxn.Protocol.Compact
import GlobalTxn.Text.Hex
import GlobalTxn.Text.Utf8

/-! # Reading a document from its text

`Value.ofText?` reads one JSON document, with nothing but blanks around it, or says why the
text is none and where the reading stopped.

* Blanks are space, tab, line feed and carriage return.
* A string holds no control character below U+0020 as it is.  Its escapes are `\" \\ \/ \b
  \f \n \r \t` and `\u` with four hex digits.  An escaped leading surrogate must be followed by
  the escape of a trailing one, and the two stand for one character; a trailing surrogate on
  its own is refused.
* A number is a minus sign or none, then `0` or digits that do not start with `0`, then a
  fraction and an exponent, each optional.  It is an integer (`Value.int`) when it has neither,
  lies between -2^63 and 2^64 and is not minus zero.  Otherwise it is a double, kept as written
  (`Value.float`), and one too large for a double is refused.  The double is the significand,
  cut to its leading digits that fit a 64-bit word, times a power of ten.
* In an object, a member named twice takes its last value, in the place of the first.
* Arrays and objects nest at most 127 deep.

A refusal names the place where the reading stopped, as a line and a column that counts the
bytes of that line up to and including the last byte the reader took or looked at.

Every read of a value or of the next item takes at least one character, so a budget of calls
twice as large as the text cannot run out before the text does.
-/

namespace GlobalTxn.Protocol

namespace Document

/-- Why a text is no document: the reason, and how many bytes of the text lie after the place
where the reading stopped. -/
structure Stop where
  reason : String
  left : Nat

/-- The number of bytes of characters. -/
def byteCount (cs : List Char) : Nat := cs.foldl (fun n c => n + c.utf8Size) 0

/-- A stop in front of the text `rest`. -/
def stopAt (reason : String) (rest : List Char) : Stop := ⟨reason, byteCount rest⟩

/-- A stop just after the first byte of `rest`: where a look at the next character, or the
taking of the next byte, ends. -/
def stopPast (reason : String) (rest : List Char) : Stop := ⟨reason, byteCount rest - 1⟩

/-- A result read from the front of a text, with the text after it. -/
abbrev Parsed (α : Type) := α × List Char

/-- Whether a character is a blank between tokens. -/
def isBlank (c : Char) : Bool := c == ' ' || c == '\t' || c == '\n' || c == '\r'

/-- The text after the blanks in front. -/
def skipBlanks (cs : List Char) : List Char := cs.dropWhile isBlank

/-! ## Literals -/

/-- Takes the letters `word` from the front of a text: the text after them. -/
def literalRest : List Char → List Char → Except Stop (List Char)
  | [], rest => .ok rest
  | _ :: _, [] => .error ⟨"EOF while parsing a value", 0⟩
  | w :: ws, c :: rest =>
    if c == w then literalRest ws rest else .error (stopPast "expected ident" (c :: rest))

/-! ## Strings -/

/-- The number written by four hex digits. -/
def hexQuad? (a b c d : Char) : Option Nat :=
  [a, b, c, d].foldlM (fun acc ch => (acc * 16 + ·) <$> Text.hexValue? ch) 0

/-- Whether a code unit leads a surrogate pair. -/
def isLeadSurrogate (u : Nat) : Bool := 0xD800 ≤ u && u ≤ 0xDBFF

/-- Whether a code unit ends a surrogate pair. -/
def isTrailSurrogate (u : Nat) : Bool := 0xDC00 ≤ u && u ≤ 0xDFFF

/-- The stop at four hex digits that are not there: four bytes further if the text has them,
at its end if not. -/
def shortQuad (cs : List Char) : Stop :=
  if 4 ≤ byteCount cs then ⟨"invalid escape", byteCount cs - 4⟩
  else ⟨"EOF while parsing a string", 0⟩

/-- The character of a short escape, the letter after the backslash. -/
def shortEscape? : Char → Option Char
  | '"' => some '"'
  | '\\' => some '\\'
  | '/' => some '/'
  | 'b' => some '\x08'
  | 'f' => some '\x0c'
  | 'n' => some '\n'
  | 'r' => some '\r'
  | 't' => some '\t'
  | _ => none

/-- The reason of a control character inside a string. -/
def controlInString : String :=
  "control character (\\u0000-\\u001F) found while parsing a string"

/-- Reads the rest of a string after its opening quote, the characters read so far being `acc`
in reverse: the string and the text after its closing quote. -/
def stringRest (acc : List Char) : List Char → Except Stop (Parsed String)
  | [] => .error ⟨"EOF while parsing a string", 0⟩
  | '"' :: rest => .ok (String.ofList acc.reverse, rest)
  | '\\' :: rest =>
    match rest with
    | [] => .error ⟨"EOF while parsing a string", 0⟩
    | 'u' :: a :: b :: c :: d :: more =>
      match hexQuad? a b c d with
      | none => .error (shortQuad (a :: b :: c :: d :: more))
      | some u =>
        if isTrailSurrogate u then .error (stopAt "lone leading surrogate in hex escape" more)
        else if !isLeadSurrogate u then stringRest (Char.ofNat u :: acc) more
        else
          match more with
          | [] | ['\\'] => .error ⟨"EOF while parsing a string", 0⟩
          | '\\' :: 'u' :: e :: f :: g :: h :: tail =>
            match hexQuad? e f g h with
            | none => .error (shortQuad (e :: f :: g :: h :: tail))
            | some v =>
              if isTrailSurrogate v then
                stringRest (Char.ofNat (0x10000 + (u - 0xD800) * 0x400 + (v - 0xDC00)) :: acc)
                  tail
              else .error (stopAt "lone leading surrogate in hex escape" tail)
          | '\\' :: 'u' :: short => .error (shortQuad short)
          | '\\' :: c :: tail => .error (stopPast "unexpected end of hex escape" (c :: tail))
          | c :: tail => .error (stopPast "unexpected end of hex escape" (c :: tail))
    | 'u' :: short => .error (shortQuad short)
    | c :: more =>
      match shortEscape? c with
      | some e => stringRest (e :: acc) more
      | none => .error (stopAt "invalid escape" more)
  | c :: rest =>
    if c.toNat < 0x20 then .error (stopAt controlInString rest)
    else stringRest (c :: acc) rest

/-! ## Numbers -/

/-- The largest 64-bit word. -/
def wordMax : Nat := 18446744073709551615

/-- The largest 32-bit signed integer, the bound of an exponent. -/
def exponentMax : Nat := 2147483647

/-- The value of a character that is a decimal digit. -/
def digit? (c : Char) : Option Nat := if c.isDigit then some (c.toNat - 48) else none

/-- Reads the digits of a whole part after its first one, `sig` being its value so far: the
value grows while it fits a 64-bit word, and from the first digit that would not fit on each
digit only raises the power of ten `exp`. -/
def wholeDigits (sig exp : Nat) : List Char → Nat × Nat × List Char
  | [] => (sig, exp, [])
  | c :: rest =>
    match digit? c with
    | some d =>
      if exp = 0 ∧ sig * 10 + d ≤ wordMax then wholeDigits (sig * 10 + d) 0 rest
      else wholeDigits sig (exp + 1) rest
    | none => (sig, exp, c :: rest)

/-- Reads the digits of a fraction: the significand grows and the power of ten drops while the
significand fits a 64-bit word; from the first digit that would not fit on the digits are
passed over.  Also counts the digits. -/
def fractionDigits (sig : Nat) (exp : Int) (count : Nat) (full : Bool) :
    List Char → Nat × Int × Nat × List Char
  | [] => (sig, exp, count, [])
  | c :: rest =>
    match digit? c with
    | some d =>
      if !full && sig * 10 + d ≤ wordMax then
        fractionDigits (sig * 10 + d) (exp - 1) (count + 1) false rest
      else fractionDigits sig exp (count + 1) true rest
    | none => (sig, exp, count, c :: rest)

/-- Reads the digits of an exponent after its first one, `exp` being its value so far: the
value and the text after them, or, at the first digit that takes the value past
`exponentMax`, the text after that digit. -/
def exponentDigits (exp : Nat) : List Char → Except (List Char) (Nat × List Char)
  | [] => .ok (exp, [])
  | c :: rest =>
    match digit? c with
    | some d =>
      if exp * 10 + d ≤ exponentMax then exponentDigits (exp * 10 + d) rest else .error rest
    | none => .ok (exp, c :: rest)

/-- An exponent brought into the range of a 32-bit signed integer. -/
def clampExponent (e : Int) : Int :=
  if e < -2147483648 then -2147483648 else if e > 2147483647 then 2147483647 else e

/-- Whether the double of significand `sig` times ten to the `exp` is too large: the
significand as a double times the double nearest to the power is infinite. -/
def outOfRange (sig : Nat) (exp : Int) : Bool :=
  sig != 0 && 0 ≤ exp &&
    (308 < exp || (Float.ofNat sig * Float.ofScientific 1 false exp.toNat).isInf)

/-- Reads an exponent after its letter, for significand `sig` scaled so far by ten to the
`start`: the power of ten of the whole number and the text after it.  A power that overflows
makes the number zero, or too large if it is positive and the significand is not zero. -/
def exponentAt (sig : Nat) (start : Int) (cs : List Char) : Except Stop (Int × List Char) :=
  let (up, afterSign) := match cs with
    | '+' :: rest => (true, rest)
    | '-' :: rest => (false, rest)
    | rest => (true, rest)
  match afterSign with
  | [] => .error ⟨"EOF while parsing a value", 0⟩
  | c :: rest =>
    match digit? c with
    | none => .error (stopPast "invalid number" (c :: rest))
    | some d =>
      match exponentDigits d rest with
      | .error rest =>
        if sig != 0 && up then .error (stopAt "number out of range" rest)
        else .ok (-2147483648, rest.dropWhile Char.isDigit)
      | .ok (exp, rest) =>
        .ok (clampExponent (if up then start + exp else start - exp), rest)

/-- A double of significand `sig` times ten to the `exp`, read up to `rest`, with its text
`text`; refused if it is too large. -/
def doubleAt (text : String) (sig : Nat) (exp : Int) (rest : List Char) :
    Except Stop (Parsed Value) :=
  if outOfRange sig exp then .error (stopAt "number out of range" rest)
  else .ok (.float text, rest)

/-- Reads the fraction and exponent of a number whose whole part has significand `sig` and
power of ten `exp`, `cs` being the text after the whole part; `numeral` gives the text of the
number up to a place.  Without either, and without digits past a 64-bit word, the number is an
integer if it fits, negative or not. -/
def numberTail (numeral : List Char → String) (negative : Bool) (sig exp : Nat)
    (cs : List Char) : Except Stop (Parsed Value) :=
  match cs with
  | '.' :: rest =>
    let (sig, e, count, rest) := fractionDigits sig exp 0 false rest
    if count = 0 then
      match rest with
      | [] => .error ⟨"EOF while parsing a value", 0⟩
      | _ => .error (stopPast "invalid number" rest)
    else
      match rest with
      | c :: more =>
        if c == 'e' || c == 'E' then do
          let (e, rest) ← exponentAt sig e more
          doubleAt (numeral rest) sig e rest
        else doubleAt (numeral rest) sig e rest
      | [] => doubleAt (numeral []) sig e []
  | c :: more =>
    if c == 'e' || c == 'E' then do
      let (e, rest) ← exponentAt sig exp more
      doubleAt (numeral rest) sig e rest
    else whole (c :: more)
  | [] => whole []
where
  /-- The number of a whole part alone. -/
  whole (rest : List Char) : Except Stop (Parsed Value) :=
    if exp ≠ 0 then doubleAt (numeral rest) sig exp rest
    else if !negative then .ok (.int sig, rest)
    else if sig = 0 ∨ 9223372036854775808 < sig then .ok (.float (numeral rest), rest)
    else .ok (.int (-(sig : Int)), rest)

/-- Reads a number from the front of a text, which starts with a minus sign or a digit. -/
def numberAt (cs : List Char) : Except Stop (Parsed Value) :=
  let numeral (rest : List Char) : String := String.ofList (cs.take (cs.length - rest.length))
  let (negative, afterSign) := match cs with
    | '-' :: rest => (true, rest)
    | rest => (false, rest)
  match afterSign with
  | [] => .error ⟨"EOF while parsing a value", 0⟩
  | c :: rest =>
    match digit? c with
    | none => .error (stopPast "invalid number" (c :: rest))
    | some 0 =>
      match rest with
      | d :: _ =>
        if d.isDigit then .error (stopPast "invalid number" rest)
        else numberTail numeral negative 0 0 rest
      | [] => numberTail numeral negative 0 0 []
    | some d =>
      let (sig, exp, rest) := wholeDigits d 0 rest
      numberTail numeral negative sig exp rest

/-! ## Arrays, objects and values -/

/-- Sets member `key` of an object to `v`: in its place if it is there, at the end if not. -/
def setMember (members : List (String × Value)) (key : String) (v : Value) :
    List (String × Value) :=
  if members.any (·.1 == key) then
    members.map fun (k, x) => if k == key then (k, v) else (k, x)
  else members ++ [(key, v)]

/-- How deep arrays and objects may nest, plus one. -/
def nestingBudget : Nat := 128

mutual

/-- Reads a value after any blanks in front of `cs`, inside `depth` arrays and objects, with
a budget of `fuel` calls: the value and the text after it. -/
def valueAt : Nat → Nat → List Char → Except Stop (Parsed Value)
  | 0, _, _ => .error ⟨"EOF while parsing a value", 0⟩
  | fuel + 1, depth, cs =>
    match skipBlanks cs with
    | [] => .error ⟨"EOF while parsing a value", 0⟩
    | 'n' :: rest => (literalRest ['u', 'l', 'l'] rest).map (.null, ·)
    | 't' :: rest => (literalRest ['r', 'u', 'e'] rest).map (.bool true, ·)
    | 'f' :: rest => (literalRest ['a', 'l', 's', 'e'] rest).map (.bool false, ·)
    | '"' :: rest => (stringRest [] rest).map fun (s, rest) => (.str s, rest)
    | '[' :: rest =>
      if depth + 1 < nestingBudget then itemsAt fuel (depth + 1) [] true rest
      else .error (stopPast "recursion limit exceeded" ('[' :: rest))
    | '\x7b' :: rest =>
      if depth + 1 < nestingBudget then membersAt fuel (depth + 1) [] true rest
      else .error (stopPast "recursion limit exceeded" ('\x7b' :: rest))
    | c :: rest =>
      if c == '-' || c.isDigit then numberAt (c :: rest)
      else .error (stopPast "expected value" (c :: rest))

/-- Reads the rest of an array after its items `acc`, `first` telling that there are none
yet: the next item, after a comma unless it is the first, or the closing bracket. -/
def itemsAt : Nat → Nat → List Value → Bool → List Char → Except Stop (Parsed Value)
  | 0, _, _, _, _ => .error ⟨"EOF while parsing a list", 0⟩
  | fuel + 1, depth, acc, first, cs =>
    match skipBlanks cs with
    | ']' :: rest => .ok (.arr acc, rest)
    | [] => .error ⟨"EOF while parsing a list", 0⟩
    | ',' :: rest =>
      if first then .error (stopPast "expected value" (',' :: rest))
      else
        match skipBlanks rest with
        | ']' :: more => .error (stopPast "trailing comma" (']' :: more))
        | [] => .error ⟨"EOF while parsing a value", 0⟩
        | rest => do
          let (v, rest) ← valueAt fuel depth rest
          itemsAt fuel depth (acc ++ [v]) false rest
    | rest =>
      if first then do
        let (v, rest) ← valueAt fuel depth rest
        itemsAt fuel depth (acc ++ [v]) false rest
      else .error (stopPast "expected `,` or `]`" rest)

/-- Reads the rest of an object after its members `acc`, `first` telling that there are none
yet: the next member, after a comma unless it is the first, or the closing brace. -/
def membersAt : Nat → Nat → List (String × Value) → Bool → List Char → Except Stop (Parsed Value)
  | 0, _, _, _, _ => .error ⟨"EOF while parsing an object", 0⟩
  | fuel + 1, depth, acc, first, cs =>
    match skipBlanks cs with
    | '\x7d' :: rest => .ok (.obj acc, rest)
    | [] => .error ⟨"EOF while parsing an object", 0⟩
    | ',' :: rest =>
      if first then .error (stopPast "key must be a string" (',' :: rest))
      else
        match skipBlanks rest with
        | '"' :: more => memberAt fuel depth acc more
        | '\x7d' :: more => .error (stopPast "trailing comma" ('\x7d' :: more))
        | [] => .error ⟨"EOF while parsing a value", 0⟩
        | rest => .error (stopPast "key must be a string" rest)
    | '"' :: rest =>
      if first then memberAt fuel depth acc rest
      else .error (stopPast "expected `,` or `\x7d`" ('"' :: rest))
    | rest =>
      if first then .error (stopPast "key must be a string" rest)
      else .error (stopPast "expected `,` or `\x7d`" rest)

/-- Reads a member of an object after the opening quote of its name, the members so far being
`acc`: its name, a colon and its value, then the members after it. -/
def memberAt : Nat → Nat → List (String × Value) → List Char → Except Stop (Parsed Value)
  | 0, _, _, _ => .error ⟨"EOF while parsing an object", 0⟩
  | fuel + 1, depth, acc, cs => do
    let (key, rest) ← stringRest [] cs
    match skipBlanks rest with
    | ':' :: rest => do
      let (v, rest) ← valueAt fuel depth rest
      membersAt fuel depth (setMember acc key v) false rest
    | [] => .error ⟨"EOF while parsing an object", 0⟩
    | rest => .error (stopPast "expected `:`" rest)

end

/-- The line and column of the place after `bytes`: lines are counted from 1 and columns by the
bytes since the last line feed. -/
def lineColumn (bytes : List UInt8) : Nat × Nat :=
  bytes.foldl (fun (line, column) (b : UInt8) =>
    if b == 10 then (line + 1, 0) else (line, column + 1)) (1, 0)

/-- What is said about a text that is no document. -/
def Stop.message (text : String) (s : Stop) : String :=
  let bytes := Text.Utf8.encode text
  let (line, column) := lineColumn (bytes.take (bytes.length - s.left))
  s!"{s.reason} at line {line} column {column}"

end Document

/-- Reads a document from its text, with nothing but blanks around it. -/
def Value.ofText? (text : String) : Except String Value :=
  let cs := text.toList
  match Document.valueAt (2 * cs.length + 2) 0 cs with
  | .error s => .error (s.message text)
  | .ok (v, rest) =>
    match Document.skipBlanks rest with
    | [] => .ok v
    | more => .error ((Document.stopPast "trailing characters" more).message text)

example : ((Value.ofText? "[1, -0, 1.0, 1e3, 18446744073709551616, \"a\\u00e9\"]").map
    Value.compact).toOption = some "[1,-0,1.0,1e3,18446744073709551616,\"aé\"]" := by
  decide +kernel

example : (match Value.ofText? "[1,]" with | .error e => e | .ok _ => "") =
    "trailing comma at line 1 column 4" := by
  decide +kernel

end GlobalTxn.Protocol
