import Mathlib
import GlobalTxn.Record.Wire

/-! # Reading back what the wire format writes

Every value the record writers put on the wire is read back by the matching reader, with
the bytes after it untouched, as long as it fits the word it is written in: a varint holds a
number below `2 ^ 64`, a key a tag below `2 ^ 29`, a 32-bit field a signed 32-bit integer, and
a length-delimited field fewer than `2 ^ 64` bytes.

A message is read field after field by `readFields`, which runs on fuel: each round reads one
key, so fuel at least the number of bytes to read suffices.  `ReadsTo field limit m bytes r`
says that reading the fields of `bytes` into `m`, down to `limit` bytes, ends with `r` for
every such fuel; it is built from `ReadsTo.stop` (nothing left to read) and `ReadsTo.step`
(one field read), so a message reader is followed one field at a time.

Main statements: `Utf8.toString?_encode`, `readVarint_writeVarint`, `readKey_key`,
`readString_delimited`, `ReadsTo.stop`, `ReadsTo.step` and `readNested_delimited`.
-/

namespace GlobalTxn

/-- A byte written from a number below 256 reads back as that number. -/
private theorem toNat_ofNat_byte {n : Nat} (h : n < 256) : (UInt8.ofNat n).toNat = n :=
  UInt8.toNat_ofNat_of_lt' h

namespace Text.Utf8

/-- The code point of a character read back from its value. -/
private theorem ofNat_val (c : Char) : Char.ofNat c.val.toNat = c := Char.ofNat_toNat c

/-- After a lead byte `E0` the second byte is at least `A0`, after `ED` at most `9F`: the
second byte of a character of three bytes keeps to these bounds, since its code point is at
least `800` and no surrogate. -/
private theorem isTrail_secondBounds_three {v : Nat} (h2 : 2047 < v) (h3 : v ≤ 65535)
    (hs : v < 0xd800 ∨ 0xdfff < v) :
    isTrail (secondBounds (v / 4096 % 16 + 0xe0)).1 (secondBounds (v / 4096 % 16 + 0xe0)).2
      (UInt8.ofNat (v / 64 % 64 + 0x80)) = true := by
  simp only [secondBounds, isTrail, toNat_ofNat_byte (show v / 64 % 64 + 0x80 < 256 by omega)]
  by_cases ha : v / 4096 % 16 + 0xe0 = 0xE0
  · simp only [ha, if_true]; simp; omega
  · by_cases hb : v / 4096 % 16 + 0xe0 = 0xED
    · simp only [hb]; simp; omega
    · simp only [ha, hb, if_false, show v / 4096 % 16 + 0xe0 ≠ 0xF0 by omega,
        show v / 4096 % 16 + 0xe0 ≠ 0xF4 by omega]
      simp; omega

/-- After a lead byte `F0` the second byte is at least `90`, after `F4` at most `8F`: the
second byte of a character of four bytes keeps to these bounds, since its code point lies in
`10000 .. 10FFFF`. -/
private theorem isTrail_secondBounds_four {v : Nat} (h3 : 65535 < v) (h4 : v < 0x110000) :
    isTrail (secondBounds (v / 262144 % 8 + 0xf0)).1 (secondBounds (v / 262144 % 8 + 0xf0)).2
      (UInt8.ofNat (v / 4096 % 64 + 0x80)) = true := by
  simp only [secondBounds, isTrail, toNat_ofNat_byte (show v / 4096 % 64 + 0x80 < 256 by omega)]
  have hE0 : v / 262144 % 8 + 0xf0 ≠ 0xE0 := by omega
  have hED : v / 262144 % 8 + 0xf0 ≠ 0xED := by omega
  simp only [hE0, hED, if_false]
  by_cases ha : v / 262144 % 8 + 0xf0 = 0xF0
  · simp only [ha, if_true]; simp; omega
  · by_cases hb : v / 262144 % 8 + 0xf0 = 0xF4
    · simp only [hb, show (0xF4 : Nat) ≠ 0xF0 by decide, if_true, if_false]; simp; omega
    · simp only [ha, hb, if_false]; simp; omega

private theorem decode?_one {c : Char} (rest : List UInt8) (h1 : c.val.toNat ≤ 127) :
    decode? (String.utf8EncodeChar c ++ rest) = (c :: ·) <$> decode? rest := by
  simp only [String.utf8EncodeChar, if_pos h1, List.cons_append, List.nil_append]
  -- the equations of `decode?` split on the bytes after the first; unfold it whole instead
  rw [decode?.eq_def]
  simp only [toNat_ofNat_byte (show c.val.toNat < 256 by omega)]
  rw [if_pos (by omega), ofNat_val]

private theorem decode?_two {c : Char} (rest : List UInt8) (h1 : ¬ c.val.toNat ≤ 127)
    (h2 : c.val.toNat ≤ 2047) :
    decode? (String.utf8EncodeChar c ++ rest) = (c :: ·) <$> decode? rest := by
  simp only [String.utf8EncodeChar, if_neg h1, if_pos h2, List.cons_append, List.nil_append]
  rw [decode?]
  simp only [toNat_ofNat_byte (show c.val.toNat / 64 % 32 + 0xc0 < 256 by omega)]
  rw [if_neg (by omega), if_pos (by omega)]
  simp only [isTrail, toNat_ofNat_byte (show c.val.toNat % 64 + 0x80 < 256 by omega)]
  rw [if_pos (by simp; omega)]
  have hv : (c.val.toNat / 64 % 32 + 0xc0 - 0xC0) * 64 + (c.val.toNat % 64 + 0x80 - 0x80) =
      c.val.toNat := by omega
  rw [hv, ofNat_val]

private theorem decode?_three {c : Char} (rest : List UInt8) (h2 : ¬ c.val.toNat ≤ 2047)
    (h3 : c.val.toNat ≤ 65535) (hs : c.val.toNat < 0xd800 ∨ 0xdfff < c.val.toNat) :
    decode? (String.utf8EncodeChar c ++ rest) = (c :: ·) <$> decode? rest := by
  have hsecond := isTrail_secondBounds_three (by omega) h3 hs
  simp only [String.utf8EncodeChar, if_neg (show ¬ c.val.toNat ≤ 127 by omega), if_neg h2,
    if_pos h3, List.cons_append, List.nil_append]
  rw [decode?]
  simp only [toNat_ofNat_byte (show c.val.toNat / 4096 % 16 + 0xe0 < 256 by omega)]
  rw [if_neg (by omega), if_neg (by omega), if_pos (by omega), hsecond]
  simp only [isTrail, toNat_ofNat_byte (show c.val.toNat / 64 % 64 + 0x80 < 256 by omega),
    toNat_ofNat_byte (show c.val.toNat % 64 + 0x80 < 256 by omega), Bool.true_and]
  rw [if_pos (by simp; omega)]
  have hv : (c.val.toNat / 4096 % 16 + 0xe0 - 0xE0) * 4096 +
      (c.val.toNat / 64 % 64 + 0x80 - 0x80) * 64 + (c.val.toNat % 64 + 0x80 - 0x80) =
      c.val.toNat := by omega
  rw [hv, ofNat_val]

private theorem decode?_four {c : Char} (rest : List UInt8) (h3 : ¬ c.val.toNat ≤ 65535)
    (h4 : c.val.toNat < 0x110000) :
    decode? (String.utf8EncodeChar c ++ rest) = (c :: ·) <$> decode? rest := by
  have hsecond := isTrail_secondBounds_four (by omega) h4
  simp only [String.utf8EncodeChar, if_neg (show ¬ c.val.toNat ≤ 127 by omega),
    if_neg (show ¬ c.val.toNat ≤ 2047 by omega), if_neg h3, List.cons_append, List.nil_append]
  rw [decode?]
  simp only [toNat_ofNat_byte (show c.val.toNat / 262144 % 8 + 0xf0 < 256 by omega)]
  rw [if_neg (by omega), if_neg (by omega), if_neg (by omega), if_pos (by omega), hsecond]
  simp only [isTrail, toNat_ofNat_byte (show c.val.toNat / 4096 % 64 + 0x80 < 256 by omega),
    toNat_ofNat_byte (show c.val.toNat / 64 % 64 + 0x80 < 256 by omega),
    toNat_ofNat_byte (show c.val.toNat % 64 + 0x80 < 256 by omega), Bool.true_and]
  rw [if_pos (by simp; omega)]
  have hv : (c.val.toNat / 262144 % 8 + 0xf0 - 0xF0) * 262144 +
      (c.val.toNat / 4096 % 64 + 0x80 - 0x80) * 4096 + (c.val.toNat / 64 % 64 + 0x80 - 0x80) * 64 +
      (c.val.toNat % 64 + 0x80 - 0x80) = c.val.toNat := by omega
  rw [hv, ofNat_val]

/-- The bytes of one character are read back as that character, whatever follows them. -/
theorem decode?_utf8EncodeChar_append (c : Char) (rest : List UInt8) :
    decode? (String.utf8EncodeChar c ++ rest) = (c :: ·) <$> decode? rest := by
  -- a code point is below `D800`, or above `DFFF` and below `110000`
  have hc : c.val.toNat < 0xd800 ∨ (0xdfff < c.val.toNat ∧ c.val.toNat < 0x110000) := by
    have h := c.valid
    simp only [UInt32.isValidChar, Nat.isValidChar] at h
    omega
  by_cases h1 : c.val.toNat ≤ 127
  · exact decode?_one rest h1
  by_cases h2 : c.val.toNat ≤ 2047
  · exact decode?_two rest h1 h2
  by_cases h3 : c.val.toNat ≤ 65535
  · exact decode?_three rest h2 h3 (by omega)
  · exact decode?_four rest h3 (by omega)

/-- The UTF-8 bytes of characters are read back as those characters. -/
theorem decode?_flatMap_utf8EncodeChar (cs : List Char) :
    decode? (cs.flatMap String.utf8EncodeChar) = some cs := by
  induction cs with
  | nil => rfl
  | cons c cs ih => rw [List.flatMap_cons, decode?_utf8EncodeChar_append, ih]; rfl

/-- The UTF-8 bytes of a text are read back as that text. -/
theorem toString?_encode (s : String) : toString? (encode s) = some s := by
  simp [toString?, encode, decode?_flatMap_utf8EncodeChar]

end Text.Utf8

namespace Wire

/-! ## Varints and keys -/

/-- Reading, from byte `i` of a varint on, the bytes that `writeVarint.go` writes for `n`: the
value lands `7 * i` bits up.  The bound on `n` is what the bytes still to come can hold, so the
tenth byte holds at most the top bit of a 64-bit word. -/
theorem readVarint_go_writeVarint_go (rest : List UInt8) :
    ∀ (fuel n i acc : Nat), n < fuel → i ≤ 9 → n < 2 ^ (64 - 7 * i) →
      readVarint.go i acc (writeVarint.go fuel n ++ rest) = .ok (acc + n * 2 ^ (7 * i), rest)
  | 0, _, _, _, h, _, _ => absurd h (Nat.not_lt_zero _)
  | fuel + 1, n, i, acc, hfuel, hi, hn => by
    have hpow : 2 ^ (7 * (i + 1)) = 2 ^ (7 * i) * 128 := by
      rw [Nat.mul_succ, Nat.pow_add]
    by_cases hlast : n < 128
    · -- one byte, below `128`: the varint ends here
      have hbyte : n.toUInt8.toNat = n := toNat_ofNat_byte (by omega)
      have hnine : ¬ (i = 9 ∧ 2 ≤ n) := by
        rintro ⟨rfl, h2⟩
        have : n < 2 := by simpa using hn
        omega
      simp only [writeVarint.go, if_pos hlast, List.cons_append, List.nil_append, readVarint.go,
        hbyte, Nat.mod_eq_of_lt hlast, Nat.shiftLeft_eq, if_neg hnine]
    · -- a byte with its top bit set, then the varint of `n / 128`
      have hbyte : (n % 128 + 128).toUInt8.toNat = n % 128 + 128 := toNat_ofNat_byte (by omega)
      have hi9 : i ≠ 9 := by
        rintro rfl
        have : n < 2 := by simpa using hn
        omega
      have hrest : n / 128 < 2 ^ (64 - 7 * (i + 1)) := by
        have h : 2 ^ (64 - 7 * i) = 2 ^ (64 - 7 * (i + 1)) * 128 := by
          rw [show 64 - 7 * i = 64 - 7 * (i + 1) + 7 by omega, Nat.pow_add]
        rw [h] at hn
        omega
      simp only [writeVarint.go, if_neg hlast, List.cons_append, readVarint.go, hbyte,
        show (n % 128 + 128) % 128 = n % 128 by omega, Nat.shiftLeft_eq,
        if_neg (show ¬ n % 128 + 128 < 128 by omega), if_neg hi9]
      rw [readVarint_go_writeVarint_go rest fuel (n / 128) (i + 1) _ (by omega) (by omega) hrest,
        hpow]
      congr 2
      calc acc + n % 128 * 2 ^ (7 * i) + n / 128 * (2 ^ (7 * i) * 128)
          = acc + (n % 128 + 128 * (n / 128)) * 2 ^ (7 * i) := by
            rw [Nat.add_mul, Nat.mul_comm 128, Nat.mul_assoc, Nat.mul_comm 128 (2 ^ (7 * i)),
              Nat.add_assoc]
        _ = acc + n * 2 ^ (7 * i) := by rw [Nat.mod_add_div]

/-- A varint is read back, with the bytes after it untouched. -/
theorem readVarint_writeVarint {n : Nat} (h : n < 2 ^ 64) (rest : List UInt8) :
    readVarint (writeVarint n ++ rest) = .ok (n, rest) := by
  have := readVarint_go_writeVarint_go rest (n + 1) n 0 0 (Nat.lt_succ_self n) (by omega) h
  simpa [readVarint, writeVarint] using this

/-- A varint takes at least one byte. -/
theorem length_writeVarint_pos (n : Nat) : 0 < (writeVarint n).length := by
  unfold writeVarint
  rw [writeVarint.go]
  split <;> simp

/-- A key takes at least one byte. -/
theorem length_key_pos (tag : Nat) (w : WireType) : 0 < (key tag w).length :=
  length_writeVarint_pos _

/-- A key is read back, for a tag from 1 below `2 ^ 29`. -/
theorem readKey_key {tag : Nat} (h0 : 0 < tag) (h : tag < 2 ^ 29) (w : WireType)
    (rest : List UInt8) : readKey (key tag w ++ rest) = .ok ((tag, w), rest) := by
  have hw : w.code < 8 := by cases w <;> decide
  have hk : tag * 8 + w.code < 2 ^ 64 := by omega
  have hsmall : ¬ tag * 8 + w.code ≥ UInt32.size := by
    show ¬ tag * 8 + w.code ≥ 2 ^ 32
    omega
  simp only [readKey, key, readVarint_writeVarint hk, bind, Except.bind, if_neg hsmall,
    show (tag * 8 + w.code) % 8 = w.code by omega, WireType.ofCode?_code,
    show (tag * 8 + w.code) / 8 = tag by omega, if_neg (Nat.pos_iff_ne_zero.mp h0)]

/-! ## Values of fields -/

/-- A 64-bit field's value is read back. -/
theorem readUInt64_writeVarint {v : Nat} (h : v < 2 ^ 64) (rest : List UInt8) :
    readUInt64 .varint (writeVarint v ++ rest) = .ok (v, rest) := by
  simp only [readUInt64, expect, readVarint_writeVarint h]
  rfl

/-- A signed 32-bit integer survives its 64-bit two's complement word. -/
theorem int32OfWord_wordOfInt {v : Int} (hlo : -2 ^ 31 ≤ v) (hhi : v < 2 ^ 31) :
    int32OfWord (wordOfInt v) = v := by
  unfold int32OfWord wordOfInt
  by_cases hv : v < 0
  · rw [if_pos hv]
    have hw : ((UInt64.size : Int) + v).toNat % UInt32.size = (2 ^ 32 + v).toNat := by
      show ((2 ^ 64 : Int) + v).toNat % 2 ^ 32 = _
      omega
    simp only [hw]
    rw [if_neg (by show ¬ (2 ^ 32 + v).toNat < 2 ^ 32 / 2; omega)]
    show ((2 ^ 32 + v).toNat : Int) - 2 ^ 32 = v
    omega
  · rw [if_neg hv]
    have hw : v.toNat % UInt32.size = v.toNat := Nat.mod_eq_of_lt (by show v.toNat < 2 ^ 32; omega)
    simp only [hw]
    rw [if_pos (by show v.toNat < 2 ^ 32 / 2; omega)]
    omega

/-- The word of a signed 32-bit integer fits a varint. -/
theorem wordOfInt_lt {v : Int} (hlo : -2 ^ 31 ≤ v) (hhi : v < 2 ^ 31) : wordOfInt v < 2 ^ 64 := by
  unfold wordOfInt
  split
  · show ((2 ^ 64 : Int) + v).toNat < 2 ^ 64
    omega
  · omega

/-- A signed 32-bit field's value is read back. -/
theorem readInt32_wordOfInt {v : Int} (hlo : -2 ^ 31 ≤ v) (hhi : v < 2 ^ 31)
    (rest : List UInt8) :
    readInt32 .varint (writeVarint (wordOfInt v) ++ rest) = .ok (v, rest) := by
  simp only [readInt32, expect, readVarint_writeVarint (wordOfInt_lt hlo hhi)]
  show Except.ok (int32OfWord (wordOfInt v), rest) = _
  rw [int32OfWord_wordOfInt hlo hhi]

/-- A length followed by that many bytes is read as the length, with the bytes still there. -/
theorem readLength_writeVarint {bytes : List UInt8} (h : bytes.length < 2 ^ 64)
    (rest : List UInt8) :
    readLength (writeVarint bytes.length ++ (bytes ++ rest)) =
      .ok (bytes.length, bytes ++ rest) := by
  simp only [readLength, readVarint_writeVarint h, bind, Except.bind]
  rw [if_neg (by simp)]
  rfl

/-- The value of a text field, its UTF-8 bytes after their length, is read back. -/
theorem readString_delimited {s : String} (h : (Text.Utf8.encode s).length < 2 ^ 64)
    (rest : List UInt8) :
    readString .lengthDelimited
        (writeVarint (Text.Utf8.encode s).length ++ (Text.Utf8.encode s ++ rest)) =
      .ok (s, rest) := by
  simp only [readString, expect, if_true, readLength_writeVarint h, bind, Except.bind,
    List.take_left, List.drop_left, Text.Utf8.toString?_encode]
  rfl

/-! ## Messages, one field at a time -/

section Fields

variable {M : Type} {field : M → Nat → WireType → Read M} {limit : Nat}

/-- Reading the fields of `bytes` into `m`, down to `limit` bytes left, ends with `r` for
every fuel that covers the bytes beyond the limit. -/
def ReadsTo (field : M → Nat → WireType → Read M) (limit : Nat) (m : M) (bytes : List UInt8)
    (r : Except DecodeError (M × List UInt8)) : Prop :=
  ∀ fuel, bytes.length ≤ fuel + limit → readFields field limit fuel m bytes = r

/-- With no more than `limit` bytes left, reading stops. -/
theorem ReadsTo.stop {m : M} {bytes : List UInt8} (h : bytes.length ≤ limit) :
    ReadsTo field limit m bytes (.ok (m, bytes)) := by
  intro fuel _
  cases fuel with
  | zero => rfl
  | succ fuel => simp [readFields, h]

/-- Reading one field, whose key and value take some bytes, and then the rest. -/
theorem ReadsTo.step {m m' : M} {bytes afterKey more : List UInt8} {tag : Nat} {w : WireType}
    {r : Except DecodeError (M × List UInt8)} (hlim : limit < bytes.length)
    (hkey : readKey bytes = .ok ((tag, w), afterKey))
    (hfield : field m tag w afterKey = .ok (m', more))
    (hlen : more.length < bytes.length) (h : ReadsTo field limit m' more r) :
    ReadsTo field limit m bytes r := by
  intro fuel hfuel
  obtain ⟨fuel, rfl⟩ : ∃ f, fuel = f + 1 := ⟨fuel - 1, by omega⟩
  simp only [readFields, if_neg (Nat.not_le.mpr hlim), hkey, hfield, bind, Except.bind]
  exact h fuel (by omega)

/-- A length-delimited field is read as its value; the bytes after it are what remains. -/
theorem ReadsTo.delimited {m : M} (m' : M) {tag : Nat} {inner more : List UInt8}
    {r : Except DecodeError (M × List UInt8)} (h0 : 0 < tag) (htag : tag < 2 ^ 29)
    (hlim : limit ≤ more.length)
    (hread : inner.length < 2 ^ 64 → field m tag .lengthDelimited
      (writeVarint inner.length ++ (inner ++ more)) = .ok (m', more))
    (h : more.length < 2 ^ 64 → ReadsTo field limit m' more r)
    (hsize : (Wire.delimited tag inner ++ more).length < 2 ^ 64) :
    ReadsTo field limit m (Wire.delimited tag inner ++ more) r := by
  simp only [Wire.delimited, List.append_assoc, List.length_append] at hsize ⊢
  have hk := length_key_pos tag .lengthDelimited
  exact ReadsTo.step (by simp only [List.length_append]; omega) (readKey_key h0 htag _ _)
    (hread (by omega)) (by simp only [List.length_append]; omega) (h (by omega))

/-- A varint field is read as its value; the bytes after it are what remains. -/
theorem ReadsTo.varint {m : M} (m' : M) {tag n : Nat} {more : List UInt8}
    {r : Except DecodeError (M × List UInt8)} (h0 : 0 < tag) (htag : tag < 2 ^ 29)
    (hlim : limit ≤ more.length)
    (hread : field m tag .varint (writeVarint n ++ more) = .ok (m', more))
    (h : more.length < 2 ^ 64 → ReadsTo field limit m' more r)
    (hsize : (key tag .varint ++ writeVarint n ++ more).length < 2 ^ 64) :
    ReadsTo field limit m (key tag .varint ++ writeVarint n ++ more) r := by
  simp only [List.append_assoc, List.length_append] at hsize ⊢
  have hk := length_key_pos tag .varint
  exact ReadsTo.step (by simp only [List.length_append]; omega) (readKey_key h0 htag _ _)
    hread (by simp only [List.length_append]; omega) (h (by omega))

/-- A text field is read as its value, or left out when the text is empty; the bytes after it
are what remains. -/
theorem ReadsTo.stringField {m : M} (m' : M) {tag : Nat} {s : String} {more : List UInt8}
    {r : Except DecodeError (M × List UInt8)} (h0 : 0 < tag) (htag : tag < 2 ^ 29)
    (hlim : limit ≤ more.length)
    (hread : (Text.Utf8.encode s).length < 2 ^ 64 → field m tag .lengthDelimited
      (writeVarint (Text.Utf8.encode s).length ++ (Text.Utf8.encode s ++ more)) = .ok (m', more))
    (hempty : s.isEmpty = true → m' = m) (h : more.length < 2 ^ 64 → ReadsTo field limit m' more r)
    (hsize : (stringField tag s ++ more).length < 2 ^ 64) :
    ReadsTo field limit m (stringField tag s ++ more) r := by
  by_cases he : s.isEmpty = true
  · simp only [Wire.stringField, if_pos he, List.nil_append] at hsize ⊢
    exact hempty he ▸ h hsize
  · simp only [Wire.stringField, if_neg he] at hsize ⊢
    exact .delimited m' h0 htag hlim hread h hsize

/-- A 64-bit field is read as its value, or left out at zero. -/
theorem ReadsTo.uint64Field {m : M} (m' : M) {tag v : Nat} {more : List UInt8}
    {r : Except DecodeError (M × List UInt8)} (h0 : 0 < tag) (htag : tag < 2 ^ 29)
    (hlim : limit ≤ more.length)
    (hread : field m tag .varint (writeVarint v ++ more) = .ok (m', more))
    (hzero : v = 0 → m' = m) (h : more.length < 2 ^ 64 → ReadsTo field limit m' more r)
    (hsize : (uint64Field tag v ++ more).length < 2 ^ 64) :
    ReadsTo field limit m (uint64Field tag v ++ more) r := by
  by_cases hv : v = 0
  · simp only [Wire.uint64Field, if_pos hv, List.nil_append] at hsize ⊢
    exact hzero hv ▸ h hsize
  · simp only [Wire.uint64Field, if_neg hv] at hsize ⊢
    exact .varint m' h0 htag hlim hread h hsize

/-- A signed 32-bit field is read as its value, or left out at zero. -/
theorem ReadsTo.int32Field {m : M} (m' : M) {tag : Nat} {v : Int} {more : List UInt8}
    {r : Except DecodeError (M × List UInt8)} (h0 : 0 < tag) (htag : tag < 2 ^ 29)
    (hlim : limit ≤ more.length)
    (hread : field m tag .varint (writeVarint (wordOfInt v) ++ more) = .ok (m', more))
    (hzero : v = 0 → m' = m) (h : more.length < 2 ^ 64 → ReadsTo field limit m' more r)
    (hsize : (int32Field tag v ++ more).length < 2 ^ 64) :
    ReadsTo field limit m (int32Field tag v ++ more) r := by
  by_cases hv : v = 0
  · simp only [Wire.int32Field, if_pos hv, List.nil_append] at hsize ⊢
    exact hzero hv ▸ h hsize
  · simp only [Wire.int32Field, if_neg hv] at hsize ⊢
    exact .varint m' h0 htag hlim hread h hsize

/-- A message whose fields are read to its end is read whole. -/
theorem readMessage_of_readsTo {m m' : M} {bytes : List UInt8}
    (h : ReadsTo field 0 m bytes (.ok (m', []))) : readMessage field m bytes = .ok m' := by
  simp only [readMessage, h bytes.length (by omega)]
  rfl

end Fields

/-- A nested message is read as the fields its length covers, when its fields are read down
to the bytes that follow it. -/
theorem readNested_delimited {M : Type} {field : M → Nat → WireType → Read M} {m m' : M}
    {inner after : List UInt8} (hlen : inner.length < 2 ^ 64)
    (h : ReadsTo field after.length m (inner ++ after) (.ok (m', after))) :
    readNested field m .lengthDelimited (writeVarint inner.length ++ (inner ++ after)) =
      .ok (m', after) := by
  have hfields : readFields field after.length (inner ++ after).length m (inner ++ after) =
      .ok (m', after) := h _ (by simp)
  have hlimit : (inner ++ after).length - inner.length = after.length := by simp
  simp only [readNested, expect, if_true, readLength_writeVarint hlen, bind, Except.bind, hlimit,
    hfields]
  rfl

end Wire

end GlobalTxn
