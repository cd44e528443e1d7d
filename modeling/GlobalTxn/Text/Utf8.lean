/-! # UTF-8 bytes of text

`encode` writes a text as its UTF-8 bytes.  `decode?` reads well-formed UTF-8 only, by the
table of well-formed byte sequences of the Unicode standard: no overlong forms, no
surrogates, nothing above U+10FFFF, and no sequence cut short.
-/

namespace GlobalTxn.Text.Utf8

/-- The UTF-8 bytes of a text. -/
def encode (s : String) : List UInt8 := s.toList.flatMap String.utf8EncodeChar

/-- Whether a byte continues a sequence, within the given bounds. -/
def isTrail (lo hi : Nat) (b : UInt8) : Bool := lo ≤ b.toNat && b.toNat ≤ hi

/-- The bounds of the second byte of a sequence led by `b`. -/
def secondBounds (b : Nat) : Nat × Nat :=
  if b = 0xE0 then (0xA0, 0xBF)
  else if b = 0xED then (0x80, 0x9F)
  else if b = 0xF0 then (0x90, 0xBF)
  else if b = 0xF4 then (0x80, 0x8F)
  else (0x80, 0xBF)

/-- The characters of well-formed UTF-8 bytes. -/
def decode? : List UInt8 → Option (List Char)
  | [] => some []
  | b :: rest =>
    let n := b.toNat
    let (lo, hi) := secondBounds n
    if n < 0x80 then (Char.ofNat n :: ·) <$> decode? rest
    else if 0xC2 ≤ n ∧ n ≤ 0xDF then
      match rest with
      | c :: rest =>
        if isTrail 0x80 0xBF c then
          (Char.ofNat ((n - 0xC0) * 64 + (c.toNat - 0x80)) :: ·) <$> decode? rest
        else none
      | [] => none
    else if 0xE0 ≤ n ∧ n ≤ 0xEF then
      match rest with
      | c :: d :: rest =>
        if isTrail lo hi c && isTrail 0x80 0xBF d then
          (Char.ofNat ((n - 0xE0) * 4096 + (c.toNat - 0x80) * 64 + (d.toNat - 0x80)) :: ·) <$>
            decode? rest
        else none
      | _ => none
    else if 0xF0 ≤ n ∧ n ≤ 0xF4 then
      match rest with
      | c :: d :: e :: rest =>
        if isTrail lo hi c && isTrail 0x80 0xBF d && isTrail 0x80 0xBF e then
          (Char.ofNat ((n - 0xF0) * 262144 + (c.toNat - 0x80) * 4096 + (d.toNat - 0x80) * 64 +
            (e.toNat - 0x80)) :: ·) <$> decode? rest
        else none
      | _ => none
    else none

/-- The text of well-formed UTF-8 bytes. -/
def toString? (bytes : List UInt8) : Option String := String.ofList <$> decode? bytes

example : toString? (encode "ü表\u0000😀") = some "ü表\u0000😀" := by decide
example : decode? [0xED, 0xA0, 0x80] = none := by decide
example : decode? [0xC0, 0x80] = none := by decide
example : decode? [0xF4, 0x90, 0x80, 0x80] = none := by decide

/-- The character whose bytes hold byte `i` of a text, with the index of its first byte;
`none` past the end. -/
def charAt? (s : String) (i : Nat) : Option (Char × Nat) := go s.toList 0
where
  /-- Looks for byte `i` among the characters `cs`, the first of which starts at `start`. -/
  go : List Char → Nat → Option (Char × Nat)
    | [], _ => none
    | c :: cs, start =>
      if i < start + c.utf8Size then some (c, start) else go cs (start + c.utf8Size)

example : charAt? "a\u00e9b" 2 = some ('\u00e9', 1) := by decide +kernel

end GlobalTxn.Text.Utf8
