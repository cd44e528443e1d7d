import GlobalTxn.Ident.Xid

/-! # Reading the transaction id back from an xid

An xid is read back by taking the text after its last colon as a decimal numeral.  The main
statement, `transactionId?_eq_some_iff`, says exactly which xids give which id: those with a
colon whose last colon is followed by an optional `+`, any number of zeros and the digits of
an id below `UInt64.size`.  Every xid that `formatXid` writes is of that form, so the id is read
back whatever colons the address holds.
-/

namespace GlobalTxn

/-- `text` writes `n` in decimal: an optional `+`, any number of zeros, then the digits of
`n`. -/
def IsDecimalOf (text : List Char) (n : Nat) : Prop :=
  ∃ (sign : List Char) (zeros : Nat), (sign = [] ∨ sign = ['+']) ∧
    text = sign ++ List.replicate zeros '0' ++ Nat.toDigits 10 n

/-! ## Decimal numerals -/

/-- The digit character of an ASCII digit's value is that digit. -/
theorem digitChar_toNat_sub_zero {c : Char} (h : c.isDigit = true) :
    Nat.digitChar (c.toNat - '0'.toNat) = c := by
  have hc := Char.isDigit_iff_toNat.1 h
  simp only [Char.reduceToNat] at hc ⊢
  apply Char.toNat_inj.1
  rw [Nat.toNat_digitChar_of_lt_ten (by omega)]
  omega

/-- A digit's value is below ten. -/
theorem toNat_sub_zero_lt_ten {c : Char} (h : c.isDigit = true) : c.toNat - '0'.toNat < 10 := by
  have hc := Char.isDigit_iff_toNat.1 h
  simp only [Char.reduceToNat] at hc ⊢
  omega

@[simp]
theorem decimalValue_nil : decimalValue [] = 0 := rfl

theorem decimalValue_append_singleton (ds : List Char) (c : Char) :
    decimalValue (ds ++ [c]) = 10 * decimalValue ds + (c.toNat - '0'.toNat) := by
  simp [decimalValue, Nat.ofDigitChars_append, Nat.ofDigitChars_cons]

@[simp]
theorem decimalValue_toDigits (n : Nat) : decimalValue (Nat.toDigits 10 n) = n :=
  Nat.ofDigitChars_ten_toDigits

@[simp]
theorem decimalValue_replicate_zero_append (k : Nat) (ds : List Char) :
    decimalValue (List.replicate k '0' ++ ds) = decimalValue ds := by
  simp [decimalValue, Nat.ofDigitChars_append]

/-- A numeral of digits that does not start with a zero is the numeral of its value. -/
theorem toDigits_decimalValue {ds : List Char} (hne : ds ≠ [])
    (hd : ∀ c ∈ ds, c.isDigit = true) (hlead : ds.head? ≠ some '0') :
    Nat.toDigits 10 (decimalValue ds) = ds := by
  -- induction from the last digit: `ds` is the reverse of `rs`
  obtain ⟨rs, rfl⟩ : ∃ rs, ds = rs.reverse := ⟨ds.reverse, by simp⟩
  induction rs with
  | nil => exact absurd rfl hne
  | cons c rs ih =>
    simp only [List.reverse_cons] at hd hlead ⊢
    have hc : c.isDigit = true := hd c (by simp)
    rw [decimalValue_append_singleton]
    by_cases hrs : rs.reverse = []
    · have hlt := toNat_sub_zero_lt_ten hc
      rw [hrs, decimalValue_nil, Nat.mul_zero, Nat.zero_add, List.nil_append,
        Nat.toDigits_of_lt_base hlt, digitChar_toNat_sub_zero hc]
    · have hhead : rs.reverse.head? = (rs.reverse ++ [c]).head? := by
        obtain ⟨a, as, has⟩ := List.exists_cons_of_ne_nil hrs
        simp [has]
      have hinit := ih hrs (fun x hx => hd x (List.mem_append_left _ hx)) (by rwa [hhead])
      have hpos : 0 < decimalValue rs.reverse := by
        apply Nat.pos_of_ne_zero
        intro h0
        rw [h0, Nat.toDigits_zero] at hinit
        apply hlead
        rw [← hhead, ← hinit]
        rfl
      rw [← Nat.toDigits_append_toDigits (by decide) hpos (toNat_sub_zero_lt_ten hc), hinit,
        Nat.toDigits_of_lt_base (toNat_sub_zero_lt_ten hc), digitChar_toNat_sub_zero hc]

/-- Every non-empty numeral of digits is zeros followed by the numeral of its value. -/
theorem exists_replicate_zero_toDigits {ds : List Char} (hne : ds ≠ [])
    (hd : ∀ c ∈ ds, c.isDigit = true) :
    ∃ zeros, ds = List.replicate zeros '0' ++ Nat.toDigits 10 (decimalValue ds) := by
  induction ds with
  | nil => exact absurd rfl hne
  | cons c rest ih =>
    by_cases hc : c = '0'
    · subst hc
      cases rest with
      | nil => exact ⟨0, rfl⟩
      | cons d more =>
        obtain ⟨k, hk⟩ := ih (by simp) (fun x hx => hd x (by simp_all))
        refine ⟨k + 1, ?_⟩
        have hv : decimalValue ('0' :: d :: more) = decimalValue (d :: more) :=
          decimalValue_replicate_zero_append 1 (d :: more)
        rw [hv, List.replicate_succ, List.cons_append, ← hk]
    · exact ⟨0, (toDigits_decimalValue hne hd (by simpa using hc)).symm⟩

theorem isDigit_of_mem_toDigits_ten {n : Nat} {c : Char} (h : c ∈ Nat.toDigits 10 n) :
    c.isDigit = true :=
  Nat.isDigit_of_mem_toDigits (by decide) (by decide) h

theorem colon_not_mem_toDigits (n : Nat) : ':' ∉ Nat.toDigits 10 n := by
  intro h
  simpa using isDigit_of_mem_toDigits_ten h

/-! ## Unsigned words -/

theorem isDigit_of_mem_replicate_zero_append {zeros n : Nat} {c : Char}
    (h : c ∈ List.replicate zeros '0' ++ Nat.toDigits 10 n) : c.isDigit = true := by
  simp only [List.mem_append, List.mem_replicate] at h
  rcases h with ⟨_, rfl⟩ | hm
  · rfl
  · exact isDigit_of_mem_toDigits_ten hm

/-- A numeral of digits never starts with a sign. -/
theorem replicate_zero_append_toDigits_ne_cons_plus (zeros n : Nat) (rest : List Char) :
    List.replicate zeros '0' ++ Nat.toDigits 10 n ≠ '+' :: rest := by
  intro h
  have hmem : '+' ∈ List.replicate zeros '0' ++ Nat.toDigits 10 n := by simp [h]
  simpa using isDigit_of_mem_replicate_zero_append hmem

/-- Digits give `n` exactly when they are zeros and the digits of `n`, below `UInt64.size`. -/
theorem parseDigits?_eq_some_iff (ds : List Char) (n : Nat) :
    parseDigits? ds = some n ↔
      n < UInt64.size ∧ ∃ zeros, ds = List.replicate zeros '0' ++ Nat.toDigits 10 n := by
  unfold parseDigits?
  constructor
  · intro h
    split at h
    · simp at h
    · rename_i hok
      simp only [Bool.or_eq_true, List.isEmpty_iff, Bool.not_eq_eq_eq_not, Bool.not_true,
        List.all_eq_false, not_or] at hok
      obtain ⟨hne, hall⟩ := hok
      split at h
      · obtain rfl := Option.some.inj h
        exact ⟨by assumption, exists_replicate_zero_toDigits hne (by simpa using hall)⟩
      · simp at h
  · rintro ⟨hlt, zeros, rfl⟩
    have hall : ∀ c ∈ List.replicate zeros '0' ++ Nat.toDigits 10 n, c.isDigit = true :=
      fun _ hc => isDigit_of_mem_replicate_zero_append hc
    have hok : ((List.replicate zeros '0' ++ Nat.toDigits 10 n).isEmpty ||
        !(List.replicate zeros '0' ++ Nat.toDigits 10 n).all Char.isDigit) = false := by
      simp [Nat.toDigits_ne_nil, List.all_eq_true.2 hall]
    rw [if_neg (by rw [hok]; decide), decimalValue_replicate_zero_append,
      decimalValue_toDigits, if_pos hlt]

/-- A word numeral gives `n` exactly when it writes `n`, below `UInt64.size`. -/
theorem parseWord?_eq_some_iff (cs : List Char) (n : Nat) :
    parseWord? cs = some n ↔ n < UInt64.size ∧ IsDecimalOf cs n := by
  unfold parseWord?
  split
  · rename_i rest
    rw [parseDigits?_eq_some_iff]
    constructor
    · rintro ⟨hlt, zeros, rfl⟩
      exact ⟨hlt, ['+'], zeros, Or.inr rfl, rfl⟩
    · rintro ⟨hlt, sign, zeros, hsign | hsign, htext⟩
      · subst hsign
        exact absurd htext.symm (replicate_zero_append_toDigits_ne_cons_plus _ _ _)
      · subst hsign
        simp only [List.cons_append, List.nil_append, List.cons.injEq, true_and] at htext
        exact ⟨hlt, zeros, htext⟩
  · rename_i ds hplus
    rw [parseDigits?_eq_some_iff]
    constructor
    · rintro ⟨hlt, zeros, rfl⟩
      exact ⟨hlt, [], zeros, Or.inl rfl, rfl⟩
    · rintro ⟨hlt, sign, zeros, hsign | hsign, htext⟩
      · subst hsign
        exact ⟨hlt, zeros, by simpa using htext⟩
      · subst hsign
        exact absurd htext (hplus _)

/-! ## The text after the last colon -/

theorem takeWhile_ne_colon {u : List Char} (v : List Char) (h : ':' ∉ u) :
    (u ++ ':' :: v).takeWhile (· != ':') = u := by
  induction u with
  | nil => simp
  | cons c cs ih =>
    simp only [List.mem_cons, not_or] at h
    rw [List.cons_append, List.takeWhile_cons, if_pos (by simpa using Ne.symm h.1), ih h.2]

/-- A list with a colon splits at its first colon. -/
theorem exists_first_colon {cs : List Char} (h : ':' ∈ cs) :
    ∃ u v, cs = u ++ ':' :: v ∧ ':' ∉ u := by
  induction cs with
  | nil => simp at h
  | cons c rest ih =>
    by_cases hc : c = ':'
    · exact ⟨[], rest, by simp [hc], by simp⟩
    · have hrest : ':' ∈ rest := by
        simp only [List.mem_cons] at h
        exact h.resolve_left (Ne.symm hc)
      obtain ⟨u, v, rfl, hu⟩ := ih hrest
      exact ⟨c :: u, v, rfl, by simp [hu, Ne.symm hc]⟩

/-- The text after the last colon is what follows a colon and holds none. -/
theorem afterLastColon?_eq_some_iff (cs text : List Char) :
    afterLastColon? cs = some text ↔
      ∃ address, cs = address ++ ':' :: text ∧ ':' ∉ text := by
  constructor
  · intro h
    unfold afterLastColon? at h
    split at h
    · rename_i hmem
      have hmem' : ':' ∈ cs.reverse := by simpa using hmem
      obtain ⟨u, v, huv, hu⟩ := exists_first_colon hmem'
      rw [huv, takeWhile_ne_colon v hu] at h
      obtain rfl := Option.some.inj h
      refine ⟨v.reverse, ?_, by simpa using hu⟩
      rw [← List.reverse_reverse cs, huv]
      simp
    · simp at h
  · rintro ⟨address, rfl, htext⟩
    unfold afterLastColon?
    have hrev : (address ++ ':' :: text).reverse = text.reverse ++ ':' :: address.reverse := by
      simp
    rw [if_pos (by simp), hrev, takeWhile_ne_colon _ (by simpa using htext)]
    simp

/-! ## Xids -/

/-- An xid gives the id `t` exactly when it has a colon and the text after its last colon is a
decimal numeral of `t`, which is below `UInt64.size`. -/
theorem transactionId?_eq_some_iff (xid : String) (t : Nat) :
    transactionId? xid = some t ↔
      t < UInt64.size ∧ ∃ address text, xid.toList = address ++ ':' :: text ∧ ':' ∉ text ∧
        IsDecimalOf text t := by
  unfold transactionId?
  rw [Option.bind_eq_some_iff]
  constructor
  · rintro ⟨text, hafter, hword⟩
    obtain ⟨address, hxid, hcolon⟩ := (afterLastColon?_eq_some_iff _ _).1 hafter
    obtain ⟨hlt, hdec⟩ := (parseWord?_eq_some_iff _ _).1 hword
    exact ⟨hlt, address, text, hxid, hcolon, hdec⟩
  · rintro ⟨hlt, address, text, hxid, hcolon, hdec⟩
    exact ⟨text, (afterLastColon?_eq_some_iff _ _).2 ⟨address, hxid, hcolon⟩,
      (parseWord?_eq_some_iff _ _).2 ⟨hlt, hdec⟩⟩

theorem toList_formatXid (address : String) (t : Nat) :
    (formatXid address t).toList = address.toList ++ ':' :: Nat.toDigits 10 t := by
  simp [formatXid]

/-- The id of an xid that `formatXid` writes is read back, whatever colons the address
holds; and an xid gives `t` exactly when the text after its last colon is a decimal numeral
of `t` below `UInt64.size`. -/
theorem transactionId?_formatXid_and_eq_some_iff :
    (∀ (address : String) (t : UInt64),
      transactionId? (formatXid address t.toNat) = some t.toNat) ∧
    ∀ (xid : String) (t : Nat), transactionId? xid = some t ↔
      t < UInt64.size ∧ ∃ address text, xid.toList = address ++ ':' :: text ∧ ':' ∉ text ∧
        IsDecimalOf text t := by
  refine ⟨fun address t => ?_, transactionId?_eq_some_iff⟩
  rw [transactionId?_eq_some_iff, toList_formatXid]
  exact ⟨t.toNat_lt_size, address.toList, _, rfl, colon_not_mem_toDigits _, [], 0, Or.inl rfl,
    rfl⟩

end GlobalTxn
