import GlobalTxn.Uri.Ipv6

/-! # Components of a URI

The generic URI syntax gives each component the characters it may hold.  Characters outside
ASCII are never allowed as they stand; a percent sign must start an escape of two hex
digits.

* A scheme is a letter followed by letters, digits, `+`, `-` and `.`.
* An authority is `[userinfo@]host[:port]`.  The userinfo ends at the first `@`; the port
  follows the last colon after it that is not inside brackets.  A host is empty, an IPv6
  address in brackets, or a registered name; an address in brackets that starts with a
  version (`v` and a hex digit) is refused.  A port is decimal digits up to 65535, and may be
  empty.  An authority ends at `/`, `?` or `#`, and nothing may follow it.
* A path segment holds unreserved characters, escapes, sub-delimiters, `:` and `@`; a query
  holds these and `/` and `?`.
-/

namespace GlobalTxn.Uri

/-- Letters, digits, `-`, `.`, `_` and `~`. -/
def isUnreserved (c : Char) : Bool := c.isAlphanum || "-._~".contains c

/-- The sub-delimiters `! $ & ' ( ) * + , ; =`. -/
def isSubDelim (c : Char) : Bool := "!$&\x27()*+,;=".contains c

/-- Characters of a path segment, escapes aside. -/
def isSegmentChar (c : Char) : Bool := isUnreserved c || isSubDelim c || c == ':' || c == '@'

/-- Characters of a query, escapes aside. -/
def isQueryChar (c : Char) : Bool := isSegmentChar c || c == '/' || c == '?'

/-- Characters of userinfo, escapes aside. -/
def isUserinfoChar (c : Char) : Bool := isUnreserved c || isSubDelim c || c == ':'

/-- Characters of a registered name, escapes aside. -/
def isRegNameChar (c : Char) : Bool := isUnreserved c || isSubDelim c

/-- Whether text holds only allowed characters and well-formed escapes. -/
def isEscapedText (allowed : Char → Bool) : List Char → Bool
  | [] => true
  | '%' :: a :: b :: rest => Ipv6.isHex a && Ipv6.isHex b && isEscapedText allowed rest
  | '%' :: _ => false
  | c :: rest => allowed c && isEscapedText allowed rest

/-- Whether text is a path segment. -/
def isSegment (cs : List Char) : Bool := isEscapedText isSegmentChar cs

/-- Whether text is a query. -/
def isQuery (cs : List Char) : Bool := isEscapedText isQueryChar cs

/-! ## Schemes -/

/-- What is wrong with a scheme. -/
inductive SchemeProblem where
  | empty
  | invalid
  deriving DecidableEq, Repr

/-- What is wrong with a scheme, if anything. -/
def schemeProblem? : List Char → Option SchemeProblem
  | [] => some .empty
  | c :: rest =>
    if c.isAlpha && rest.all (fun d => d.isAlphanum || "+-.".contains d) then none
    else some .invalid

/-! ## Authorities -/

/-- An authority: userinfo, host and port. -/
structure Authority where
  userinfo : Option (List Char)
  host : List Char
  port : Option Nat
  deriving DecidableEq, Repr

/-- The position of the last colon that no `]` follows. -/
def portColon? (cs : List Char) : Option Nat :=
  (cs.zipIdx.foldl (fun last (c, i) =>
    if c == ':' then some i else if c == ']' then none else last) none)

/-- Whether text is a host: empty, a bracketed IPv6 address, or a registered name. -/
def isHost (h : List Char) : Bool :=
  match h with
  | [] => true
  | '[' :: rest =>
    if rest.getLast? == some ']' then
      let inner := rest.dropLast
      match inner with
      | v :: d :: _ => if (v == 'v' || v == 'V') && Ipv6.isHex d then false else isIpv6 inner
      | _ => isIpv6 inner
    else isEscapedText isRegNameChar h
  | _ => isEscapedText isRegNameChar h
where
  /-- Whether text is an IPv6 address. -/
  isIpv6 (cs : List Char) : Bool :=
    cs.all (fun c => Ipv6.isHex c || c == ':' || c == '.') && (Ipv6.parse? cs).isSome

/-- The port of its digits, if they are all digits and at most 65535. -/
def port? (cs : List Char) : Option (Option Nat) :=
  if cs.isEmpty then some none
  else if cs.all Char.isDigit then
    let v := Ipv6.digitsValue 10 cs
    if v ≤ 65535 then some (some v) else none
  else none

/-- Reads an authority that is the whole of `cs`. -/
def Authority.parse? (cs : List Char) : Option Authority := do
  let body := cs.takeWhile fun c => c != '/' && c != '?' && c != '#'
  if body.length != cs.length then none
  let (userinfo, hostPort) := match body.findIdx? (· == '@') with
    | some i => (some (body.take i), body.drop (i + 1))
    | none => (none, body)
  if let some u := userinfo then
    if !isEscapedText isUserinfoChar u then none
  let (host, port) ← match portColon? hostPort with
    | some i => do pure (hostPort.take i, ← port? (hostPort.drop (i + 1)))
    | none => pure (hostPort, none)
  if !isHost host then none
  pure ⟨userinfo, host, port⟩

example : (Authority.parse? "[::1]:2379".toList).map (·.port) = some (some 2379) := by decide
example : (Authority.parse? "a:99999".toList).isSome = false := by decide

/-! ## The checks an address is read with -/

/-- Every character of escaped text is allowed, a `%`, or a hex digit of an escape. -/
theorem mem_of_isEscapedText {allowed : Char → Bool} {cs : List Char}
    (h : isEscapedText allowed cs = true) :
    ∀ c ∈ cs, allowed c = true ∨ c = '%' ∨ Ipv6.isHex c = true := by
  fun_induction isEscapedText allowed cs with
  | case1 => simp
  | case2 a b rest ih =>
    simp only [Bool.and_eq_true] at h
    intro c hc
    simp only [List.mem_cons] at hc
    rcases hc with rfl | rfl | rfl | hc
    · exact Or.inr (Or.inl rfl)
    · exact Or.inr (Or.inr h.1.1)
    · exact Or.inr (Or.inr h.1.2)
    · exact ih h.2 c hc
  | case3 => simp at h
  | case4 c rest _ _ ih =>
    simp only [Bool.and_eq_true] at h
    intro d hd
    rcases List.mem_cons.1 hd with rfl | hd
    · exact Or.inl h.1
    · exact ih h.2 d hd

/-- A path segment holds no `/` and no `?`. -/
theorem slash_question_not_mem_of_isSegment {s : List Char} (hs : isSegment s = true) :
    '/' ∉ s ∧ '?' ∉ s := by
  have hchar := mem_of_isEscapedText hs
  refine ⟨fun h => ?_, fun h => ?_⟩
  · rcases hchar '/' h with h | h | h
    · simp [isSegmentChar, isUnreserved, isSubDelim] at h
    · cases h
    · simp [Ipv6.isHex, Text.hexValue?] at h
  · rcases hchar '?' h with h | h | h
    · simp [isSegmentChar, isUnreserved, isSubDelim] at h
    · cases h
    · simp [Ipv6.isHex, Text.hexValue?] at h

/-- The component checks an etcd address is read with: what is wrong with a scheme, whether
text is a path segment or a query, and the authority text reads as.  Reading an address relies
on two facts of them only: a path segment holds no `/` and no `?`, so that the root splits at
its slashes and ends before the query; and `etcd` and `etcd+tls` are schemes. -/
structure Checks where
  schemeProblem? : List Char → Option SchemeProblem
  isSegment : List Char → Bool
  isQuery : List Char → Bool
  authority? : List Char → Option Authority
  slash_question_not_mem : ∀ {s}, isSegment s = true → '/' ∉ s ∧ '?' ∉ s
  etcd_schemes : schemeProblem? "etcd".toList = none ∧ schemeProblem? "etcd+tls".toList = none

/-- The checks of the generic URI syntax above, which addresses are read with. -/
def Checks.standard : Checks where
  schemeProblem? := Uri.schemeProblem?
  isSegment := Uri.isSegment
  isQuery := Uri.isQuery
  authority? := Authority.parse?
  slash_question_not_mem := slash_question_not_mem_of_isSegment
  etcd_schemes := ⟨by simp [Uri.schemeProblem?], by simp [Uri.schemeProblem?]⟩

end GlobalTxn.Uri
