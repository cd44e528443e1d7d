import GlobalTxn.Protocol.Value

/-! # The compact text of a value

`Value.compact` writes a document as JSON without any blank: members in their order, integers
in decimal and other numbers as they were written, and strings between double quotes with a
backslash before `"` and `\`, the short escapes `\b \f \n \r \t`, and `\u00xx` (lowercase
hex) for the other control characters below U+0020; every other character stands for itself.
Answers that list values "in text order" sort them by this text, and every answer is written
in it.
-/

namespace GlobalTxn.Protocol

/-- The written form of one character inside a JSON string. -/
def jsonChar (c : Char) : List Char :=
  if c = '"' then ['\\', '"']
  else if c = '\\' then ['\\', '\\']
  else if c = '\x08' then ['\\', 'b']
  else if c = '\x0c' then ['\\', 'f']
  else if c = '\n' then ['\\', 'n']
  else if c = '\r' then ['\\', 'r']
  else if c = '\t' then ['\\', 't']
  else if c.toNat < 0x20 then
    ['\\', 'u', '0', '0', Nat.digitChar (c.toNat / 16), Nat.digitChar (c.toNat % 16)]
  else [c]

/-- A string as a JSON string. -/
def jsonString (s : String) : String :=
  String.ofList ('"' :: s.toList.flatMap jsonChar ++ ['"'])

namespace Value

/-- The compact JSON text of a document. -/
def compact : Value → String
  | null => "null"
  | bool b => if b then "true" else "false"
  | int n => toString n
  | float text => text
  | str s => jsonString s
  | arr items => "[" ++ ",".intercalate (items.attach.map fun ⟨x, _⟩ => compact x) ++ "]"
  | obj members =>
    "\x7b" ++ ",".intercalate (members.attach.map fun ⟨(k, v), _⟩ =>
      jsonString k ++ ":" ++ compact v) ++ "\x7d"
termination_by v => sizeOf v
decreasing_by
  all_goals simp_wf
  · have := List.sizeOf_lt_of_mem ‹_ ∈ items›
    omega
  · have := List.sizeOf_lt_of_mem ‹_ ∈ members›
    simp at this
    omega

example : compact (.arr [.str "a\"b\n", .int (-3), .null]) = "[\"a\\\"b\\n\",-3,null]" := by
  decide +kernel

end Value

end GlobalTxn.Protocol
