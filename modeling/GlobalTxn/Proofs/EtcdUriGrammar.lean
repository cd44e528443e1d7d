import Mathlib
import GlobalTxn.Uri.Etcd

/-! # Etcd addresses accept exactly their grammar

An etcd address reads `scheme://address root[?query]`:

* the scheme is `etcd` or `etcd+tls`;
* the address is not empty and lists servers separated by `,`; a server holds no `/` or `?`
  and is an authority without userinfo;
* the root is empty, or each of its segments follows a `/`, none empty and each a path
  segment, so it never ends with `/`;
* the query, after a `?`, is not empty, is a query, and is made of `key=value` parameters
  separated by `&` whose keys are `username` and `password`, each at most once, both or
  neither.

The address read then has an endpoint `http://server` (`https://server` for `etcd+tls`) per
server, in order, the root as it stands, and the credentials of the query.  `Uri.Spells`
states this grammar; it builds the text and the address read from the pieces.  Whether a
scheme, a segment, a query or an authority is valid is what the component checks say
(`Uri.Checks`); the grammar holds for any checks that keep `/` and `?` out of path segments and
take `etcd` and `etcd+tls` as schemes, the two facts reading relies on, and addresses are read
with `Uri.Checks.standard`.

Reading goes in stages (`Uri.EtcdUri.parse_eq_ok_iff`), each with its own lemma: the scheme,
the servers of the address, the root and the query, whose credentials are read parameter by
parameter (`Uri.credentials?_eq_some_iff`).

Main statement: `Uri.EtcdUri.parse_accepts_exactly_grammar`, reading succeeds exactly on the
texts of the grammar, with the address they spell; its halves are `Uri.Spells.of_parse_eq_ok`
and `Uri.Spells.parse_eq_ok`.
-/

namespace GlobalTxn

/-! ## Reading in stages

A reader in `Except` succeeds when each of its stages does, each on what the one before gave.
-/

section Stages

variable {ε α β : Type}

theorem except_bind_eq_ok_iff {x : Except ε α} {f : α → Except ε β} {b : β} :
    x >>= f = .ok b ↔ ∃ a, x = .ok a ∧ f a = .ok b := by
  cases x <;> simp [bind, Except.bind]

theorem throw_bind_ne_ok (e : ε) (f : α → Except ε β) (b : β) :
    (throw e >>= f : Except ε β) ≠ .ok b := by
  simp [bind, Except.bind, throw, throwThe, MonadExceptOf.throw]

/-- Mapping a list succeeds exactly when each element passes, with the values in order. -/
theorem mapM_except_eq_ok_iff {f : α → Except ε β} {g : α → β} {P : α → Prop}
    (hf : ∀ a b, f a = .ok b ↔ P a ∧ b = g a) :
    ∀ {l : List α} {bs : List β}, l.mapM f = .ok bs ↔ (∀ a ∈ l, P a) ∧ bs = l.map g
  | [], bs => by simp [pure, Except.pure, eq_comm]
  | a :: l, bs => by
    rw [List.mapM_cons]
    simp only [except_bind_eq_ok_iff, hf, mapM_except_eq_ok_iff hf]
    constructor
    · rintro ⟨_, ⟨ha, rfl⟩, _, ⟨hl, rfl⟩, h⟩
      cases h
      exact ⟨List.forall_mem_cons.2 ⟨ha, hl⟩, rfl⟩
    · rintro ⟨hall, rfl⟩
      rw [List.forall_mem_cons] at hall
      exact ⟨_, ⟨hall.1, rfl⟩, _, ⟨hall.2, rfl⟩, rfl⟩

end Stages

theorem mem_intercalate_of_mem {α : Type} {sep : List α} {a : α} :
    ∀ {ps : List (List α)} {p : List α}, p ∈ ps → a ∈ p → a ∈ sep.intercalate ps
  | [_], p, hp, ha => by
    rw [List.intercalate_singleton]
    rwa [List.mem_singleton.1 hp] at ha
  | q :: r :: ps, p, hp, ha => by
    rw [List.intercalate_cons_cons]
    rcases List.mem_cons.1 hp with rfl | hp
    · exact List.mem_append_left _ (List.mem_append_left _ ha)
    · exact List.mem_append_right _ (mem_intercalate_of_mem hp ha)

theorem mem_of_mem_intercalate {α : Type} {sep : List α} {a : α} :
    ∀ {ps : List (List α)}, a ∈ sep.intercalate ps → a ∈ sep ∨ ∃ p ∈ ps, a ∈ p
  | [], h => by simp [List.intercalate_nil] at h
  | [q], h => by
    rw [List.intercalate_singleton] at h
    exact .inr ⟨q, List.mem_singleton_self q, h⟩
  | q :: r :: ps, h => by
    rw [List.intercalate_cons_cons] at h
    rcases List.mem_append.1 h with h | h
    · rcases List.mem_append.1 h with h | h
      · exact .inr ⟨q, List.mem_cons_self, h⟩
      · exact .inl h
    · rcases mem_of_mem_intercalate h with h | ⟨p, hp, ha⟩
      · exact .inl h
      · exact .inr ⟨p, List.mem_cons_of_mem _ hp, ha⟩

namespace Text

/-- Splitting at a separator is the library's `List.splitOn`. -/
theorem splitAt_eq_splitOn (sep : Char) : ∀ cs : List Char, splitAt sep cs = cs.splitOn sep
  | [] => rfl
  | c :: cs => by
    rw [splitAt.eq_2, List.splitOn, List.splitOnP_cons_eq_if_modifyHead, ← List.splitOn,
      ← splitAt_eq_splitOn sep cs]
    by_cases hc : c = sep
    · simp [hc]
    · have hne : (c == sep) = false := by simpa using hc
      rw [if_neg hc, hne, if_neg Bool.false_ne_true]
      cases hs : splitAt sep cs with
      | nil => exact absurd hs (splitAt_ne_nil sep cs)
      | cons p ps => rfl

/-- Splitting pieces joined by a separator they do not hold gives the pieces back. -/
theorem splitAt_intercalate {sep : Char} {ps : List (List Char)} (hps : ∀ p ∈ ps, sep ∉ p)
    (hne : ps ≠ []) : splitAt sep ([sep].intercalate ps) = ps := by
  rw [splitAt_eq_splitOn]
  exact List.splitOn_intercalate sep hps hne

/-- The pieces between separators hold no separator. -/
theorem not_mem_of_mem_splitAt {sep : Char} :
    ∀ {cs p : List Char}, p ∈ splitAt sep cs → sep ∉ p
  | [], p, hp => by
    simp only [splitAt, List.mem_singleton] at hp
    simp [hp]
  | c :: cs, p, hp => by
    unfold splitAt at hp
    split at hp
    · rcases List.mem_cons.1 hp with rfl | hp
      · exact List.not_mem_nil
      · exact not_mem_of_mem_splitAt hp
    · rename_i hc
      split at hp
      · rename_i hs
        exact absurd hs (splitAt_ne_nil sep cs)
      · rename_i q qs hs
        rcases List.mem_cons.1 hp with rfl | hp
        · have hq : sep ∉ q := not_mem_of_mem_splitAt (hs ▸ List.mem_cons_self)
          simp only [List.mem_cons, not_or]
          exact ⟨Ne.symm hc, hq⟩
        · exact not_mem_of_mem_splitAt (hs ▸ List.mem_cons_of_mem _ hp)

/-- The pieces between separators are made of characters of the text. -/
theorem subset_of_mem_splitAt {sep : Char} {cs p : List Char} (hp : p ∈ splitAt sep cs) :
    p ⊆ cs := by
  intro c hc
  rw [← intercalate_splitAt sep cs]
  exact mem_intercalate_of_mem hp hc

theorem splitFirst?_append_cons {sep : Char} {b : List Char} :
    ∀ {a : List Char}, sep ∉ a → splitFirst? sep (a ++ sep :: b) = some (a, b)
  | [], _ => by simp [splitFirst?]
  | c :: a, ha => by
    simp only [List.mem_cons, not_or] at ha
    simp [splitFirst?, Ne.symm ha.1, splitFirst?_append_cons ha.2]

theorem splitFirst?_of_not_mem {sep : Char} : ∀ {cs : List Char}, sep ∉ cs → splitFirst? sep cs = none
  | [], _ => rfl
  | c :: cs, hcs => by
    simp only [List.mem_cons, not_or] at hcs
    simp [splitFirst?, Ne.symm hcs.1, splitFirst?_of_not_mem hcs.2]

/-- Cutting at the first separator: the text is the part before, the separator and the part
after, and the part before holds no separator. -/
theorem eq_of_splitFirst?_eq_some {sep : Char} :
    ∀ {cs a b : List Char}, splitFirst? sep cs = some (a, b) → cs = a ++ sep :: b ∧ sep ∉ a
  | [], _, _, h => by cases h
  | c :: cs, a, b, h => by
    unfold splitFirst? at h
    split at h
    · rename_i hc
      cases h
      exact ⟨by simp [hc], List.not_mem_nil⟩
    · rename_i hc
      obtain ⟨⟨a', b'⟩, h', hab⟩ := Option.map_eq_some_iff.1 h
      cases hab
      obtain ⟨rfl, ha'⟩ := eq_of_splitFirst?_eq_some h'
      exact ⟨rfl, by simp [Ne.symm hc, ha']⟩

theorem not_mem_of_splitFirst?_eq_none {sep : Char} :
    ∀ {cs : List Char}, splitFirst? sep cs = none → sep ∉ cs
  | [], _ => List.not_mem_nil
  | c :: cs, h => by
    unfold splitFirst? at h
    split at h
    · cases h
    · rename_i hc
      have hcs := not_mem_of_splitFirst?_eq_none (Option.map_eq_none_iff.1 h)
      simp [Ne.symm hc, hcs]

end Text

namespace Uri

variable (k : Checks)

/-! ## Credentials in the query

`credentials?` reads the parameters of a query one at a time (`readParam`), each either a
`username` or a `password` not read before.  What has been read is kept as the parameters it
came from (`slotParams`), so a run of reads is a permutation: the parameters read, with what
was read before, are the parameters read in the end (`foldlM_readParam_eq_some_iff`).
-/

/-- The text of one parameter, `key=value`. -/
def paramText (p : List Char × List Char) : List Char := p.1 ++ '=' :: p.2

/-- The text of parameters joined by `&`. -/
def paramsText (ps : List (List Char × List Char)) : List Char :=
  ['&'].intercalate (ps.map paramText)

/-- The parameters that give credentials: `username`, then `password`; none without. -/
def credentialParams : Option (String × String) → List (List Char × List Char)
  | none => []
  | some (u, p) => [("username".toList, u.toList), ("password".toList, p.toList)]

/-- The query part of an address with the credentials it gives: nothing and none, or a `?`
and a query whose `key=value` parameters, none holding a `&`, are the credential parameters
in some order, so each key once, both or neither. -/
inductive QueryGives (k : Checks) : List Char → Option (String × String) → Prop
  | absent : QueryGives k [] none
  | params (ps : List (List Char × List Char)) (user : Option (String × String))
      (text_ne : paramsText ps ≠ []) (valid : k.isQuery (paramsText ps) = true)
      (values : ∀ p ∈ ps, '&' ∉ p.2) (perm : ps.Perm (credentialParams user)) :
      QueryGives k ('?' :: paramsText ps) user

/-- One parameter read into the credentials read so far; the step of `credentials?`. -/
def readParam : Option String × Option String → List Char → Option (Option String × Option String)
  | (user, pass), param => do
    let (k, v) ← Text.splitFirst? '=' param
    let v := String.ofList v
    match String.ofList k with
    | "username" => if user.isSome then none else pure (some v, pass)
    | "password" => if pass.isSome then none else pure (user, some v)
    | _ => none

/-- The credentials of what was read: both, or neither. -/
def finishCredentials : Option String × Option String → Option (Option (String × String))
  | (none, none) => some none
  | (some u, some p) => some (some (u, p))
  | _ => none

theorem credentials?_eq (q : List Char) :
    credentials? k q =
      if k.isQuery q = true then
        ((Text.splitAt '&' q).foldlM readParam (none, none)).bind finishCredentials
      else none := by
  unfold credentials?
  cases k.isQuery q <;> rfl

/-- What was read, as the parameters it came from. -/
def slotParams (acc : Option String × Option String) : List (List Char × List Char) :=
  (acc.1.map fun u => ("username".toList, u.toList)).toList ++
    (acc.2.map fun p => ("password".toList, p.toList)).toList

theorem slotParams_finish {acc : Option String × Option String}
    {user : Option (String × String)} (h : finishCredentials acc = some user) :
    slotParams acc = credentialParams user := by
  obtain ⟨u, p⟩ := acc
  cases u <;> cases p <;> simp [finishCredentials] at h <;> subst h <;> rfl

theorem mem_slotParams {acc : Option String × Option String} {k v : List Char} :
    (k, v) ∈ slotParams acc ↔
      (k = "username".toList ∧ acc.1.map String.toList = some v) ∨
        (k = "password".toList ∧ acc.2.map String.toList = some v) := by
  obtain ⟨u, p⟩ := acc
  cases u <;> cases p <;> simp [slotParams, eq_comm]

theorem keys_slotParams_nodup (acc : Option String × Option String) :
    ((slotParams acc).map (·.1)).Nodup := by
  obtain ⟨u, p⟩ := acc
  cases u <;> cases p <;> simp [slotParams]

/-- What was read is determined by the parameters it came from. -/
theorem eq_of_slotParams_perm {a b : Option String × Option String}
    (h : (slotParams a).Perm (slotParams b)) : a = b := by
  have hmem : ∀ k v, (k, v) ∈ slotParams a ↔ (k, v) ∈ slotParams b := fun k v => h.mem_iff
  -- each slot is found from the parameters of its own key
  have hu : a.1.map String.toList = b.1.map String.toList := Option.ext fun v => by
    simpa [mem_slotParams] using hmem "username".toList v
  have hp : a.2.map String.toList = b.2.map String.toList := Option.ext fun v => by
    simpa [mem_slotParams] using hmem "password".toList v
  have hinj : Function.Injective String.toList := fun _ _ h => String.toList_injective h
  exact Prod.ext (Option.map_injective hinj hu) (Option.map_injective hinj hp)


/-- Reading one parameter: a `username` or a `password` that was not read before. -/
theorem readParam_eq_some_iff {acc a : Option String × Option String} {x : List Char} :
    readParam acc x = some a ↔ ∃ k v, x = paramText (k, v) ∧
      ((k = "username".toList ∧ acc.1 = none ∧ a = (some (String.ofList v), acc.2)) ∨
        (k = "password".toList ∧ acc.2 = none ∧ a = (acc.1, some (String.ofList v)))) := by
  obtain ⟨user, pass⟩ := acc
  constructor
  · intro h
    simp only [readParam] at h
    cases hs : Text.splitFirst? '=' x with
    | none => simp [hs] at h
    | some kv =>
      obtain ⟨k, v⟩ := kv
      obtain ⟨rfl, -⟩ := Text.eq_of_splitFirst?_eq_some hs
      simp only [hs, Option.bind_eq_bind, Option.bind_some] at h
      refine ⟨k, v, rfl, ?_⟩
      have hk : ∀ t : String, String.ofList k = t → k = t.toList := fun t ht => by
        rw [← ht, String.toList_ofList]
      split at h
      · rename_i heq
        cases user <;> simp at h
        exact Or.inl ⟨hk _ heq, rfl, h.symm⟩
      · rename_i heq
        cases pass <;> simp at h
        exact Or.inr ⟨hk _ heq, rfl, h.symm⟩
      · cases h
  · rintro ⟨k, v, rfl, hread⟩
    -- the keys read hold no `=`, so the parameter splits back into its key and value
    have hk : '=' ∉ k := by rcases hread with ⟨rfl, -⟩ | ⟨rfl, -⟩ <;> simp
    rw [readParam, paramText, Text.splitFirst?_append_cons hk]
    rcases hread with ⟨rfl, hu, rfl⟩ | ⟨rfl, hp, rfl⟩
    · simp only at hu
      simp [hu]
    · simp only at hp
      simp [hp]

/-- Reading a parameter adds it to what was read. -/
theorem slotParams_read {acc a : Option String × Option String} {k v : List Char}
    (h : (k = "username".toList ∧ acc.1 = none ∧ a = (some (String.ofList v), acc.2)) ∨
      (k = "password".toList ∧ acc.2 = none ∧ a = (acc.1, some (String.ofList v)))) :
    (slotParams a).Perm ((k, v) :: slotParams acc) := by
  obtain ⟨user, pass⟩ := acc
  rcases h with ⟨rfl, hu, rfl⟩ | ⟨rfl, hp, rfl⟩
  · simp only at hu
    subst hu
    simp [slotParams]
  · simp only at hp
    subst hp
    simp [slotParams]

/-- A key read before cannot be read again: the parameters of a run name each key once. -/
theorem key_not_mem_of_perm {k v : List Char} {rest : List (List Char × List Char)}
    {acc : Option String × Option String} (h : ((k, v) :: rest).Perm (slotParams acc)) :
    ∀ p ∈ rest, p.1 ≠ k := by
  have hnodup := (h.map (·.1)).nodup_iff.2 (keys_slotParams_nodup acc)
  rw [List.map_cons, List.nodup_cons] at hnodup
  intro p hp hpk
  exact hnodup.1 (List.mem_map.2 ⟨p, hp, hpk⟩)

/-- The run lemma of reading credentials: the reads from `acc` succeed exactly when the
parameters are `key=value` texts that, with what was read before, are what is read in the
end.  By induction on the parameters, each read adding one parameter to what was read. -/
theorem foldlM_readParam_eq_some_iff :
    ∀ (params : List (List Char)) (acc acc' : Option String × Option String),
      params.foldlM readParam acc = some acc' ↔
        ∃ ps : List (List Char × List Char), params = ps.map paramText ∧
          (ps ++ slotParams acc).Perm (slotParams acc')
  | [], acc, acc' => by
    simp only [List.foldlM_nil]
    constructor
    · rintro ⟨⟩
      exact ⟨[], rfl, List.Perm.refl _⟩
    · rintro ⟨ps, hps, hperm⟩
      obtain rfl : ps = [] := List.map_eq_nil_iff.1 hps.symm
      exact congrArg some (eq_of_slotParams_perm hperm)
  | x :: xs, acc, acc' => by
    simp only [List.foldlM_cons, Option.bind_eq_bind]
    constructor
    · intro h
      obtain ⟨a, ha, hrest⟩ := Option.bind_eq_some_iff.1 h
      obtain ⟨k, v, rfl, hread⟩ := readParam_eq_some_iff.1 ha
      obtain ⟨ps, rfl, hperm⟩ := (foldlM_readParam_eq_some_iff xs a acc').1 hrest
      refine ⟨(k, v) :: ps, rfl, ?_⟩
      have hmid : ((k, v) :: (ps ++ slotParams acc)).Perm (ps ++ slotParams a) :=
        List.perm_middle.symm.trans ((slotParams_read hread).symm.append_left ps)
      exact hmid.trans hperm
    · rintro ⟨ps', hps', hperm⟩
      obtain ⟨⟨k, v⟩, ps, rfl, rfl, rfl⟩ := List.map_eq_cons_iff.1 hps'.symm
      -- the key read is a credential key, and it was not read before
      have hkey : (k, v) ∈ slotParams acc' := hperm.mem_iff.1 List.mem_cons_self
      have hfresh := key_not_mem_of_perm hperm
      obtain ⟨a, hread⟩ : ∃ a,
          (k = "username".toList ∧ acc.1 = none ∧ a = (some (String.ofList v), acc.2)) ∨
            (k = "password".toList ∧ acc.2 = none ∧ a = (acc.1, some (String.ofList v))) := by
        rcases mem_slotParams.1 hkey with ⟨rfl, -⟩ | ⟨rfl, -⟩
        · refine ⟨_, Or.inl ⟨rfl, ?_, rfl⟩⟩
          cases hu : acc.1 with
          | none => rfl
          | some u =>
            exact absurd rfl (hfresh ("username".toList, u.toList) (List.mem_append_right _
              (mem_slotParams.2 (Or.inl ⟨rfl, by simp [hu]⟩))))
        · refine ⟨_, Or.inr ⟨rfl, ?_, rfl⟩⟩
          cases hp : acc.2 with
          | none => rfl
          | some p =>
            exact absurd rfl (hfresh ("password".toList, p.toList) (List.mem_append_right _
              (mem_slotParams.2 (Or.inr ⟨rfl, by simp [hp]⟩))))
      rw [readParam_eq_some_iff.2 ⟨k, v, rfl, hread⟩, Option.bind_some]
      exact (foldlM_readParam_eq_some_iff (ps.map paramText) a acc').2
        ⟨ps, rfl, ((slotParams_read hread).append_left ps).trans (List.perm_middle.trans hperm)⟩

/-- The keys of credential parameters are `username` and `password`. -/
theorem key_of_mem_credentialParams {user : Option (String × String)} {p : List Char × List Char}
    (hp : p ∈ credentialParams user) : p.1 = "username".toList ∨ p.1 = "password".toList := by
  rcases user with _ | ⟨u, pw⟩
  · cases hp
  · simp only [credentialParams, List.mem_cons, List.not_mem_nil, or_false] at hp
    rcases hp with rfl | rfl
    · exact Or.inl rfl
    · exact Or.inr rfl

/-- A query gives credentials exactly as the grammar of queries says. -/
theorem credentials?_eq_some_iff {q : List Char} {user : Option (String × String)} :
    credentials? k q = some user ↔ QueryGives k ('?' :: q) user := by
  constructor
  · intro h
    rw [credentials?_eq] at h
    split at h
    · rename_i hvalid
      obtain ⟨acc', hfold, hfin⟩ := Option.bind_eq_some_iff.1 h
      obtain ⟨ps, hps, hperm⟩ := (foldlM_readParam_eq_some_iff _ _ _).1 hfold
      -- an empty query splits into one empty parameter, which is no `key=value`
      have hqne : q ≠ [] := by
        rintro rfl
        obtain ⟨p, -, -, hp, -⟩ := List.map_eq_cons_iff.1 hps.symm
        simp [paramText] at hp
      have hq : q = paramsText ps := by rw [paramsText, ← hps, Text.intercalate_splitAt]
      have hvalues : ∀ p ∈ ps, '&' ∉ p.2 := by
        intro p hp hamp
        have hpiece : paramText p ∈ Text.splitAt '&' q := hps ▸ List.mem_map_of_mem hp
        exact Text.not_mem_of_mem_splitAt hpiece (by simp [paramText, hamp])
      rw [slotParams_finish hfin] at hperm
      subst hq
      exact QueryGives.params ps user hqne hvalid hvalues (by simpa [slotParams] using hperm)
    · cases h
  · intro h
    cases h with
    | params ps user hne hvalid hvalues hperm =>
      rw [credentials?_eq, if_pos hvalid]
      -- the parameters hold no `&`: their keys are credential keys, their values are free of it
      have hpieces : ∀ t ∈ ps.map paramText, '&' ∉ t := by
        intro t ht
        obtain ⟨p, hp, rfl⟩ := List.mem_map.1 ht
        have hkey := key_of_mem_credentialParams (hperm.mem_iff.1 hp)
        simp only [paramText, List.mem_append, List.mem_cons, not_or]
        refine ⟨?_, by decide, hvalues p hp⟩
        rcases hkey with hk | hk <;> rw [hk] <;> simp
      have hsplit : Text.splitAt '&' (paramsText ps) = ps.map paramText :=
        Text.splitAt_intercalate hpieces (by rintro h; simp [paramsText, h] at hne)
      rw [hsplit]
      rcases user with _ | ⟨u, pw⟩
      · have hfold := (foldlM_readParam_eq_some_iff (ps.map paramText) (none, none) (none, none)).2
          ⟨ps, rfl, by simpa [slotParams, credentialParams] using hperm⟩
        rw [hfold]
        rfl
      · have hfold := (foldlM_readParam_eq_some_iff (ps.map paramText) (none, none)
          (some u, some pw)).2 ⟨ps, rfl, by simpa [slotParams, credentialParams] using hperm⟩
        rw [hfold]
        rfl

/-! ## The root -/

/-- The text of a root: each segment after a `/`. -/
def rootText (segs : List (List Char)) : List Char := (segs.map ('/' :: ·)).flatten

theorem rootText_eq_cons {segs : List (List Char)} (hne : segs ≠ []) :
    rootText segs = '/' :: ['/'].intercalate segs := by
  induction segs with
  | nil => exact absurd rfl hne
  | cons s rest ih =>
    cases rest with
    | nil => simp [rootText]
    | cons t ts =>
      have ih' := ih (List.cons_ne_nil t ts)
      simp only [rootText, List.map_cons, List.flatten_cons] at ih' ⊢
      rw [ih', List.intercalate_cons_cons]
      simp

/-- A root whose segments are not empty and hold no `/` does not end with `/`. -/
theorem getLast?_rootText_ne_slash :
    ∀ {segs : List (List Char)}, (∀ s ∈ segs, s ≠ [] ∧ '/' ∉ s) → (rootText segs).getLast? ≠ some '/'
  | [], _ => by simp [rootText]
  | s :: rest, h => by
    have hs := h s List.mem_cons_self
    have hrest : ∀ t ∈ rest, t ≠ [] ∧ '/' ∉ t := fun t ht => h t (List.mem_cons_of_mem _ ht)
    have hcons : rootText (s :: rest) = ['/'] ++ s ++ rootText rest := by simp [rootText]
    rw [hcons]
    cases rest with
    | nil =>
      rw [rootText, List.map_nil, List.flatten_nil, List.append_nil,
        List.getLast?_append_of_ne_nil _ hs.1]
      exact fun hl => hs.2 (List.mem_of_getLast? hl)
    | cons t ts =>
      rw [List.getLast?_append_of_ne_nil _ (by simp [rootText])]
      exact getLast?_rootText_ne_slash hrest

theorem isRoot_slash (rest : List Char) :
    isRoot k ('/' :: rest) = (('/' :: rest).getLast? != some '/' &&
      (Text.splitAt '/' rest).all fun seg => !seg.isEmpty && k.isSegment seg) := rfl

/-- A root is empty, or segments each after a `/`, none empty and each a path segment. -/
theorem isRoot_iff (root : List Char) :
    isRoot k root = true ↔
      ∃ segs, root = rootText segs ∧ ∀ s ∈ segs, s ≠ [] ∧ k.isSegment s = true := by
  constructor
  · intro h
    unfold isRoot at h
    split at h
    · exact ⟨[], rfl, fun s hs => absurd hs List.not_mem_nil⟩
    · rename_i rest
      simp only [Bool.and_eq_true, List.all_eq_true, Bool.not_eq_true', List.isEmpty_eq_false_iff] at h
      refine ⟨Text.splitAt '/' rest, ?_, fun s hs => ?_⟩
      · rw [rootText_eq_cons (Text.splitAt_ne_nil _ _), Text.intercalate_splitAt]
      · exact h.2 s hs
    · cases h
  · rintro ⟨segs, rfl, hsegs⟩
    cases segs with
    | nil => rfl
    | cons s rest =>
      have hslash : ∀ t ∈ s :: rest, '/' ∉ t := fun t ht =>
        (k.slash_question_not_mem (hsegs t ht).2).1
      have hlast := getLast?_rootText_ne_slash fun t ht => ⟨(hsegs t ht).1, hslash t ht⟩
      rw [rootText_eq_cons (List.cons_ne_nil s rest)] at hlast ⊢
      rw [isRoot_slash k, Text.splitAt_intercalate hslash (List.cons_ne_nil s rest)]
      simp only [Bool.and_eq_true, List.all_eq_true, bne_iff_ne, ne_eq]
      exact ⟨hlast, fun t ht => by simpa using hsegs t ht⟩

/-- A root holds no `?`: its segments hold none. -/
theorem question_not_mem_rootText {segs : List (List Char)}
    (hsegs : ∀ s ∈ segs, k.isSegment s = true) :
    '?' ∉ rootText segs := by
  simp only [rootText, List.mem_flatten, List.mem_map, not_exists, not_and]
  rintro _ ⟨s, hs, rfl⟩ hq
  rcases List.mem_cons.1 hq with hq | hq
  · cases hq
  · exact (k.slash_question_not_mem (hsegs s hs)).2 hq

/-! ## The stages of reading an address -/

/-- The text of a scheme: `etcd`, or `etcd+tls` for secured connections. -/
def schemeText (tls : Bool) : List Char := if tls then "etcd+tls".toList else "etcd".toList

/-- The scheme of the endpoints: `http`, or `https` for secured connections. -/
def endpointScheme (tls : Bool) : String := if tls then "https" else "http"

/-- Cutting at the first occurrence of a pattern: the text is the part before, the pattern
and the part after. -/
theorem eq_of_splitOnce?_eq_some {pat : List Char} :
    ∀ {cs a b : List Char}, splitOnce? pat cs = some (a, b) → cs = a ++ pat ++ b
  | [], a, b, h => by
    unfold splitOnce? at h
    split at h
    · rename_i hp
      cases h
      simpa using hp
    · cases h
  | c :: cs, a, b, h => by
    unfold splitOnce? at h
    split at h
    · rename_i hp
      cases h
      exact (List.prefix_iff_eq_append.1 (List.isPrefixOf_iff_prefix.1 hp)).symm
    · obtain ⟨⟨a', b'⟩, h', hab⟩ := Option.map_eq_some_iff.1 h
      cases hab
      rw [eq_of_splitOnce?_eq_some h']
      rfl

theorem splitOnce?_schemeText (tls : Bool) (rest : List Char) :
    splitOnce? "://".toList (schemeText tls ++ "://".toList ++ rest) = some (schemeText tls, rest) := by
  cases tls <;> rfl

theorem schemeProblem?_schemeText (tls : Bool) : k.schemeProblem? (schemeText tls) = none := by
  cases tls
  · exact k.etcd_schemes.1
  · exact k.etcd_schemes.2

namespace EtcdUri

/-- The schemes read are `etcd` and `etcd+tls`. -/
theorem webScheme_eq_ok_iff {scheme : List Char} {web : String} :
    webScheme k scheme = .ok web ↔ ∃ tls, scheme = schemeText tls ∧ web = endpointScheme tls := by
  constructor
  · intro h
    unfold webScheme at h
    cases hp : k.schemeProblem? scheme with
    | some p => cases p <;> simp [hp] at h <;> exact absurd h (throw_bind_ne_ok _ _ _)
    | none =>
      simp only [hp] at h
      have hscheme : ∀ t : String, String.ofList scheme = t → scheme = t.toList := fun t ht => by
        rw [← ht, String.toList_ofList]
      split at h
      · rename_i heq
        cases h
        exact ⟨false, hscheme _ heq, rfl⟩
      · rename_i heq
        cases h
        exact ⟨true, hscheme _ heq, rfl⟩
      · cases h
  · rintro ⟨tls, rfl, rfl⟩
    cases tls <;> simp [webScheme, schemeProblem?_schemeText k] <;> rfl

/-- A server gives an endpoint when it is an authority without userinfo. -/
theorem endpoint_eq_ok_iff {web : String} {server : List Char} {e : String} :
    endpoint k web server = .ok e ↔
      (∃ a, k.authority? server = some a ∧ a.userinfo = none) ∧
        e = web ++ "://" ++ String.ofList server := by
  unfold endpoint
  cases hp : k.authority? server with
  | none => simp [throw, throwThe, MonadExceptOf.throw]
  | some a =>
    cases hu : a.userinfo with
    | some u => simp [hu, throw, throwThe, MonadExceptOf.throw, bind, Except.bind]
    | none => simp [hu, pure, Except.pure, eq_comm, toString]

/-- What follows the address is a root without `?`, then nothing or a query that gives the
credentials. -/
theorem rootAndUser_eq_ok_iff {rest root : List Char} {user : Option (String × String)} :
    rootAndUser k rest = .ok (root, user) ↔
      ∃ query, rest = root ++ query ∧ '?' ∉ root ∧ QueryGives k query user := by
  constructor
  · intro h
    unfold rootAndUser at h
    split at h
    · rename_i hnone
      cases h
      exact ⟨[], by simp, Text.not_mem_of_splitFirst?_eq_none hnone, .absent⟩
    · cases h
    · rename_i r q _ hsplit
      split at h
      · rename_i u hu
        cases h
        obtain ⟨rfl, hr⟩ := Text.eq_of_splitFirst?_eq_some hsplit
        exact ⟨'?' :: q, rfl, hr, (credentials?_eq_some_iff k).1 hu⟩
      · cases h
  · rintro ⟨query, rfl, hroot, hq⟩
    cases hq with
    | absent =>
      rw [rootAndUser, List.append_nil, Text.splitFirst?_of_not_mem hroot]
      rfl
    | params ps user hne hvalid hvalues hperm =>
      have hcred := (credentials?_eq_some_iff k).2
        (QueryGives.params ps user hne hvalid hvalues hperm)
      rw [rootAndUser, Text.splitFirst?_append_cons hroot]
      -- a query that is not empty is read for credentials
      obtain ⟨c, cs, hcs⟩ := List.exists_cons_of_ne_nil hne
      rw [hcs] at hcred ⊢
      simp only [hcred]
      rfl

/-- Reading an address in stages: the scheme, the address up to the first `/` or `?`, its
servers, then the root and the query. -/
theorem parse_eq_ok_iff {uri : String} {r : EtcdUri} :
    parse k uri = .ok r ↔
      ∃ scheme trailing web endpoints root user,
        splitOnce? "://".toList uri.toList = some (scheme, trailing) ∧
        webScheme k scheme = .ok web ∧
        trailing.takeWhile (fun c => c != '/' && c != '?') ≠ [] ∧
        (Text.splitAt ',' (trailing.takeWhile fun c => c != '/' && c != '?')).mapM
          (endpoint k web) = .ok endpoints ∧
        rootAndUser k (trailing.drop (trailing.takeWhile fun c => c != '/' && c != '?').length) =
          .ok (root, user) ∧
        isRoot k root = true ∧
        r = ⟨endpoints, String.ofList root, user⟩ := by
  unfold parse
  cases hs : splitOnce? "://".toList uri.toList with
  | none => simp [throw, throwThe, MonadExceptOf.throw]
  | some st =>
    obtain ⟨scheme, trailing⟩ := st
    simp only [except_bind_eq_ok_iff, Option.some.injEq, Prod.mk.injEq]
    constructor
    · rintro ⟨web, hweb, h⟩
      split at h
      · exact absurd h (throw_bind_ne_ok _ _ _)
      · rename_i hne
        obtain ⟨endpoints, hend, h⟩ := except_bind_eq_ok_iff.1 h
        obtain ⟨⟨root, user⟩, hru, h⟩ := except_bind_eq_ok_iff.1 h
        split at h
        · exact absurd h (throw_bind_ne_ok _ _ _)
        · rename_i hroot
          cases h
          refine ⟨scheme, trailing, web, endpoints, root, user, ⟨rfl, rfl⟩, hweb, ?_, hend, hru,
            ?_, rfl⟩
          · simpa using hne
          · simpa using hroot
    · rintro ⟨_, _, web, endpoints, root, user, ⟨rfl, rfl⟩, hweb, hne, hend, hru, hroot, rfl⟩
      refine ⟨web, hweb, ?_⟩
      rw [if_neg (by simpa using hne), except_bind_eq_ok_iff]
      refine ⟨endpoints, hend, ?_⟩
      rw [except_bind_eq_ok_iff]
      refine ⟨(root, user), hru, ?_⟩
      rw [if_neg (by simp [hroot])]
      rfl

end EtcdUri

/-- The address ends where the root or the query begins. -/
theorem takeWhile_rootText_append {segs : List (List Char)} {query : List Char}
    {user : Option (String × String)} (hq : QueryGives k query user) :
    (rootText segs ++ query).takeWhile (fun c => c != '/' && c != '?') = [] := by
  cases segs with
  | nil => cases hq <;> rfl
  | cons s rest => rfl

theorem takeWhile_address {address rest : List Char} (haddr : ∀ c ∈ address, c ≠ '/' ∧ c ≠ '?')
    (hrest : rest.takeWhile (fun c => c != '/' && c != '?') = []) :
    (address ++ rest).takeWhile (fun c => c != '/' && c != '?') = address := by
  rw [List.takeWhile_append_of_pos fun c hc => by simpa using haddr c hc, hrest, List.append_nil]

/-! ## The grammar -/

/-- The grammar of etcd addresses: the text `scheme://address root query` built from its
pieces, with the address it spells.  The servers of the address are separated by `,`, hold no
`/` or `?`, and are authorities without userinfo; the root is made of path segments, each
after a `/`; the query gives the credentials. -/
inductive Spells (k : Checks) : List Char → EtcdUri → Prop
  | mk (tls : Bool) (servers segs : List (List Char)) (query : List Char)
      (user : Option (String × String))
      (address_ne : [','].intercalate servers ≠ [])
      (servers_ok : ∀ s ∈ servers, ',' ∉ s ∧ '/' ∉ s ∧ '?' ∉ s ∧
        ∃ a, k.authority? s = some a ∧ a.userinfo = none)
      (segs_ok : ∀ s ∈ segs, s ≠ [] ∧ k.isSegment s = true)
      (query_ok : QueryGives k query user) :
      Spells k (schemeText tls ++ "://".toList ++ [','].intercalate servers ++ rootText segs ++ query)
        ⟨servers.map fun s => endpointScheme tls ++ "://" ++ String.ofList s,
          String.ofList (rootText segs), user⟩

/-- Every address read is spelled by the grammar. -/
theorem Spells.of_parse_eq_ok {uri : String} {r : EtcdUri} (h : EtcdUri.parse k uri = .ok r) :
    Spells k uri.toList r := by
  obtain ⟨scheme, trailing, web, endpoints, root, user, hsplit, hweb, hne, hend, hru, hroot, rfl⟩ :=
    (EtcdUri.parse_eq_ok_iff k).1 h
  obtain ⟨tls, rfl, rfl⟩ := (EtcdUri.webScheme_eq_ok_iff k).1 hweb
  obtain ⟨hservers, rfl⟩ :=
    (mapM_except_eq_ok_iff fun _ _ => EtcdUri.endpoint_eq_ok_iff k).1 hend
  obtain ⟨query, hrest, -, hquery⟩ := (EtcdUri.rootAndUser_eq_ok_iff k).1 hru
  obtain ⟨segs, rfl, hsegs⟩ := (isRoot_iff k root).1 hroot
  -- the address is the text up to the first `/` or `?`
  have htrailing := List.prefix_iff_eq_append.1
    (List.takeWhile_prefix (l := trailing) fun c => c != '/' && c != '?')
  have hchars := fun c (hc : c ∈ trailing.takeWhile fun c => c != '/' && c != '?') =>
    List.mem_takeWhile_imp hc
  generalize trailing.takeWhile (fun c => c != '/' && c != '?') = address
    at hne hservers hrest htrailing hchars
  have htext : uri.toList = schemeText tls ++ "://".toList ++
      [','].intercalate (Text.splitAt ',' address) ++ rootText segs ++ query :=
    calc uri.toList = schemeText tls ++ "://".toList ++ trailing := eq_of_splitOnce?_eq_some hsplit
      _ = schemeText tls ++ "://".toList ++ (address ++ trailing.drop address.length) := by
        rw [htrailing]
      _ = _ := by rw [hrest, Text.intercalate_splitAt]; simp only [List.append_assoc]
  have hpieces : ∀ s ∈ Text.splitAt ',' address, ',' ∉ s ∧ '/' ∉ s ∧ '?' ∉ s ∧
      ∃ a, k.authority? s = some a ∧ a.userinfo = none := by
    intro s hs
    have hsub := Text.subset_of_mem_splitAt hs
    refine ⟨Text.not_mem_of_mem_splitAt hs, fun h => ?_, fun h => ?_, hservers s hs⟩
    · simpa using hchars '/' (hsub h)
    · simpa using hchars '?' (hsub h)
  rw [htext]
  exact Spells.mk tls _ segs query user (by rwa [Text.intercalate_splitAt]) hpieces hsegs hquery

/-- Every text of the grammar is read as the address it spells. -/
theorem Spells.parse_eq_ok {uri : String} {r : EtcdUri} (h : Spells k uri.toList r) :
    EtcdUri.parse k uri = .ok r := by
  generalize htext : uri.toList = text at h
  cases h with
  | mk tls servers segs query user address_ne servers_ok segs_ok query_ok =>
    have haddr : ∀ c ∈ [','].intercalate servers, c ≠ '/' ∧ c ≠ '?' := by
      intro c hc
      rcases mem_of_mem_intercalate hc with hc | ⟨s, hs, hc⟩
      · rw [List.mem_singleton.1 hc]
        decide
      · exact ⟨fun h => (servers_ok s hs).2.1 (h ▸ hc), fun h => (servers_ok s hs).2.2.1 (h ▸ hc)⟩
    have htake : ([','].intercalate servers ++ (rootText segs ++ query)).takeWhile
        (fun c => c != '/' && c != '?') = [','].intercalate servers :=
      takeWhile_address haddr (takeWhile_rootText_append k query_ok)
    have hservers : Text.splitAt ',' ([','].intercalate servers) = servers :=
      Text.splitAt_intercalate (fun s hs => (servers_ok s hs).1) (by rintro rfl; exact address_ne rfl)
    rw [EtcdUri.parse_eq_ok_iff k]
    refine ⟨schemeText tls, [','].intercalate servers ++ (rootText segs ++ query), endpointScheme tls,
      _, rootText segs, user, ?_, (EtcdUri.webScheme_eq_ok_iff k).2 ⟨tls, rfl, rfl⟩, ?_, ?_, ?_,
      (isRoot_iff k _).2 ⟨segs, rfl, segs_ok⟩, rfl⟩
    · rw [htext]
      simpa only [List.append_assoc] using splitOnce?_schemeText tls
        ([','].intercalate servers ++ (rootText segs ++ query))
    · rw [htake]
      exact address_ne
    · rw [htake, hservers]
      exact (mapM_except_eq_ok_iff fun _ _ => EtcdUri.endpoint_eq_ok_iff k).2
        ⟨fun s hs => (servers_ok s hs).2.2.2, rfl⟩
    · rw [htake, List.drop_left]
      exact (EtcdUri.rootAndUser_eq_ok_iff k).2
        ⟨query, rfl, question_not_mem_rootText k fun s hs => (segs_ok s hs).2, query_ok⟩

/-- Reading an etcd address, with any component checks that keep `/` and `?` out of path
segments and take `etcd` and `etcd+tls` as schemes, succeeds exactly on the texts of the
grammar, and gives the address they spell. -/
theorem EtcdUri.parse_accepts_exactly_grammar (k : Checks) (uri : String) (r : EtcdUri) :
    EtcdUri.parse k uri = .ok r ↔ Spells k uri.toList r :=
  ⟨Spells.of_parse_eq_ok k, Spells.parse_eq_ok k⟩

example : EtcdUri.parse .standard "etcd+tls://a:1,b/r?password=p&username=u" =
    .ok ⟨["https://a:1", "https://b"], "/r", some ("u", "p")⟩ := by cbv

end Uri

end GlobalTxn
