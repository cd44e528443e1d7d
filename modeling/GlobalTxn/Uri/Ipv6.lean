import GlobalTxn.Text.Hex

/-! # IPv6 addresses in text

An IPv6 address is written as eight groups of one to four hex digits separated by colons.
One run of zero groups may be written `::`, and the last two groups may be written as an
IPv4 address in dotted decimal (each octet at most three digits, at most 255, without a
leading zero).  An IPv4 part may not stand before `::`, and `::` stands for at least one
group.

`parse?` reads the whole text or nothing and gives the eight groups.  A run of digits is read
whole: five hex digits in a row are no group, and four decimal digits no octet.
-/

namespace GlobalTxn.Uri.Ipv6

/-- Whether a character is a hex digit. -/
def isHex (c : Char) : Bool := (Text.hexValue? c).isSome

/-- The number of digits in base `radix`, most significant first. -/
def digitsValue (radix : Nat) (ds : List Char) : Nat :=
  ds.foldl (fun acc d => acc * radix + (Text.hexValue? d).getD 0) 0

/-- Reads a group: all the hex digits in front, one to four of them. -/
def group (cs : List Char) : Option (Nat × List Char) :=
  let ds := cs.takeWhile isHex
  if ds.length = 0 ∨ 4 < ds.length then none
  else some (digitsValue 16 ds, cs.drop ds.length)

/-- Reads an octet: all the decimal digits in front, one to three of them, no leading zero
unless alone, at most 255. -/
def octet (cs : List Char) : Option (Nat × List Char) :=
  let ds := cs.takeWhile Char.isDigit
  let v := digitsValue 10 ds
  if ds.length = 0 ∨ 3 < ds.length then none
  else if ds.head? = some '0' ∧ 1 < ds.length then none
  else if 255 < v then none
  else some (v, cs.drop ds.length)

/-- Reads the separator `c` unless this is the first item. -/
def separator (c : Char) (first : Bool) (cs : List Char) : Option (List Char) :=
  if first then some cs
  else match cs with
    | d :: rest => if d = c then some rest else none
    | [] => none

/-- Reads a dotted IPv4 address as two groups. -/
def ipv4 (cs : List Char) : Option (List Nat × List Char) := do
  let (a, cs) ← octet cs
  let (b, cs) ← octet (← separator '.' false cs)
  let (c, cs) ← octet (← separator '.' false cs)
  let (d, cs) ← octet (← separator '.' false cs)
  pure ([a * 256 + b, c * 256 + d], cs)

/-- Reads up to `limit` colon-separated groups, the last two of which may be an IPv4
address.  Gives the groups read, whether an IPv4 address ended them, and the rest; it stops
before anything that does not continue the run. -/
def groups (limit : Nat) : List Char → List Nat × Bool × List Char :=
  go limit []
where
  /-- Reads the remaining `left` groups after `acc`. -/
  go : Nat → List Nat → List Char → List Nat × Bool × List Char
    | 0, acc, cs => (acc, false, cs)
    | left + 1, acc, cs =>
      let first := acc.isEmpty
      let v4 := if 2 ≤ left + 1 then (separator ':' first cs).bind ipv4 else none
      match v4 with
      | some (gs, rest) => (acc ++ gs, true, rest)
      | none =>
        match (separator ':' first cs).bind group with
        | some (g, rest) => go left (acc ++ [g]) rest
        | none => (acc, false, cs)

/-- The eight groups of an IPv6 address written as the whole of `cs`. -/
def parse? (cs : List Char) : Option (List Nat) :=
  let (head, headV4, rest) := groups 8 cs
  if head.length = 8 then
    if rest.isEmpty then some head else none
  else if headV4 then none
  else
    match rest with
    | ':' :: ':' :: rest =>
      let (tail, _, rest) := groups (8 - (head.length + 1)) rest
      if rest.isEmpty then some (head ++ List.replicate (8 - head.length - tail.length) 0 ++ tail)
      else none
    | _ => none

example : (parse? "::1".toList).isSome = true := by decide
example : (parse? "::ffff:1.2.3.4".toList).isSome = true := by decide
example : (parse? "1:2:3:4:5:6:7:8".toList).isSome = true := by decide
example : (parse? "1:2:3:4:5:6:7:8:9".toList).isSome = false := by decide
example : (parse? "12345::".toList).isSome = false := by decide
example : (parse? ":::".toList).isSome = false := by decide

end GlobalTxn.Uri.Ipv6
