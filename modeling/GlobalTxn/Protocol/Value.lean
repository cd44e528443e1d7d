/-! # Values of the request-and-answer format

Requests and answers are JSON documents, one per line.  `Value` is such a document: objects
keep their members in the order they were written, and a member that is absent reads the same
as a member set to `null`.  A number is an integer if it is written as one (no fraction, no
exponent) and lies between -2^63 and 2^64, minus zero apart; any other number is kept as
written and is no integer to any reader.

Reading a request member goes through `Member`: it finds the member, checks its shape, and
names the member in its complaint when the shape is wrong.  Those complaints are the text of
a `BadInput` answer.  A few members are named in their complaints by a short name of their
own (`stringCalled`), and a missing description of a whole session, branch or record is a
missing part (`part`).  A member meant to hold a list is refused when it holds anything else
(`list`), except where a stray value counts as no list at all (`items`).
-/

namespace GlobalTxn.Protocol

/-- A JSON document.  `float text` is a number that is no integer, as written. -/
inductive Value where
  | null
  | bool (b : Bool)
  | int (n : Int)
  | float (text : String)
  | str (s : String)
  | arr (items : List Value)
  | obj (members : List (String × Value))
  deriving Inhabited

namespace Value

/-- The member `key` of an object; `none` if it is absent, set to `null`, or if the value is
no object. -/
def get? (v : Value) (key : String) : Option Value :=
  match v with
  | obj members =>
    match members.find? (·.1 == key) with
    | some (_, null) => none
    | some (_, x) => some x
    | none => none
  | _ => none

/-- A natural number as a value. -/
def nat (n : Nat) : Value := int n

/-- An optional value: `null` when absent. -/
def opt {α : Type} (f : α → Value) : Option α → Value
  | some a => f a
  | none => null

/-- A list of values. -/
def list {α : Type} (f : α → Value) (xs : List α) : Value := arr (xs.map f)

end Value

/-- Why a request gets no answer of its own: a complaint about the request, or the program
stopping while it reads the request. -/
inductive Refusal where
  /-- The request is malformed: the text of a `BadInput` answer. -/
  | badInput (message : String)
  /-- The program stopped: the text of a `Panic` answer. -/
  | panic (message : String)
  deriving DecidableEq, Repr

instance : Coe String Refusal := ⟨.badInput⟩

/-- The answer that stands for a refusal. -/
def Refusal.answer : Refusal → Value
  | .badInput message => .obj [("error", .str "BadInput"), ("message", .str message)]
  | .panic message => .obj [("error", .str "Panic"), ("message", .str message)]

/-- Reading a request, or the refusal that stops it. -/
abbrev Decode := Except Refusal

/-- A complaint thrown as text is a malformed request; catching text catches only those. -/
instance : MonadExceptOf String Decode where
  throw message := .error (.badInput message)
  tryCatch m handle := match m with
    | .error (.badInput message) => handle message
    | r => r

namespace Member

/-- The member `key`, which must be present. -/
def required (v : Value) (key : String) : Decode Value :=
  match v.get? key with
  | some x => .ok x
  | none => .error s!"missing field {key}"

/-- A 64-bit unsigned member: an integer from 0 up to, not including, `2 ^ 64`. -/
def word (key : String) : Value → Decode Nat
  | .int n =>
    if 0 ≤ n ∧ n.toNat < 1 <<< 64 then .ok n.toNat
    else .error s!"field {key} is not an unsigned 64-bit integer"
  | _ => .error s!"field {key} is not an unsigned 64-bit integer"

/-- A natural-number member below `2 ^ bits`: it is read as a 64-bit word, and a word too wide
for `bits` is too big. -/
def natBelow (key : String) (bits : Nat) (x : Value) : Decode Nat := do
  let n ← word key x
  if n < 1 <<< bits then pure n else throw s!"{key} too big"

/-- A 16-bit unsigned member: it is read as a 64-bit word, and a wider word is refused. -/
def shortWord (key : String) (x : Value) : Decode Nat := do
  let n ← word key x
  if n < 65536 then pure n else throw s!"{key} is not a 16-bit integer"

/-- A 32-bit signed member. -/
def int32 (key : String) : Value → Decode Int
  | .int n =>
    if -2147483648 ≤ n ∧ n ≤ 2147483647 then .ok n
    else .error s!"field {key} is not a 32-bit integer"
  | _ => .error s!"field {key} is not a 32-bit integer"

/-- A string member. -/
def string (key : String) : Value → Decode String
  | .str s => .ok s
  | _ => .error s!"field {key} is not a string"

/-- A string member whose complaint names it `name` alone. -/
def stringCalled (name : String) (_key : String) : Value → Decode String
  | .str s => .ok s
  | _ => .error s!"{name} is not a string"

/-- A boolean member. -/
def boolean (key : String) : Value → Decode Bool
  | .bool b => .ok b
  | _ => .error s!"field {key} is not a bool"

/-- The items of the list member `key`; none if it is absent or holds no list. -/
def items (v : Value) (key : String) : List Value :=
  match v.get? key with
  | some (.arr xs) => xs
  | _ => []

/-- The items of the list member `key`, none if it is absent; a member that holds no list is
refused. -/
def list (v : Value) (key : String) : Decode (List Value) :=
  match v.get? key with
  | some (.arr xs) => .ok xs
  | some _ => .error s!"{key} is not a list"
  | none => .ok []

/-- An optional member read by `f`. -/
def optional {α : Type} (v : Value) (key : String) (f : String → Value → Decode α) :
    Decode (Option α) :=
  match v.get? key with
  | some x => (f key x).map some
  | none => .ok none

/-- A member read by `f`, or `dflt` when absent. -/
def withDefault {α : Type} (v : Value) (key : String) (f : String → Value → Decode α)
    (dflt : α) :
    Decode α :=
  (optional v key f).map (·.getD dflt)

/-- A member that must be present, read by `f`. -/
def need {α : Type} (v : Value) (key : String) (f : String → Value → Decode α) :
    Decode α := do
  f key (← required v key)

/-- A member holding a whole description, which must be present, read by `f`: its absence is
told as a missing part rather than a missing field. -/
def part {α : Type} (v : Value) (key : String) (f : Value → Decode α) : Decode α :=
  match v.get? key with
  | some x => f x
  | none => .error s!"missing {key}"

end Member

end GlobalTxn.Protocol
