import Mathlib
import GlobalTxn.Lock.Row

/-! # Lock keys accept exactly their grammar

A lock key is read segment by segment.  The segments are the pieces between `;` that are not
empty; each must read `table:pk1,…,pkn`, where the table name is the text before the first
`:`, not empty, and the text after that `:` splits at `,` into primary keys, none empty.  So a
primary key may hold a `:`, and a table name a `,`.  The rows a key names are its
`(table, pk)` pairs, each once, in the order they are first named (`LockKey.namedRows`).

A segment's first problem is checked in that order: a missing `:`, then an empty table name,
then an empty primary key (`LockKey.problem?`).

Main statements: `RowLock.expand_eq` (expanding a key is reading it by this grammar and giving
every row named to the owner) and `RowLock.expand_accepts_exactly_grammar`.
-/

namespace GlobalTxn

namespace Text

/-- Cutting at the first `sep` gives the text before it and the text after it. -/
theorem splitFirst?_eq (sep : Char) (cs : List Char) :
    splitFirst? sep cs =
      if sep ∈ cs then some (cs.takeWhile (· != sep), (cs.dropWhile (· != sep)).tail) else none := by
  induction cs with
  | nil => rfl
  | cons c cs ih =>
    unfold splitFirst?
    by_cases hc : c = sep
    · subst hc
      simp
    · rw [if_neg hc, ih]
      by_cases hm : sep ∈ cs
      · simp [hm, hc]
      · simp [hm, Ne.symm hc]

end Text

namespace LockKey

/-- The segments of a lock key: the pieces between `;`, empty ones left out. -/
def segments (key : String) : List (List Char) :=
  (Text.splitAt ';' key.toList).filter (!·.isEmpty)

/-- The table name of a segment: the text before its first `:`. -/
def table (seg : List Char) : List Char := seg.takeWhile (· != ':')

/-- The primary keys of a segment: the text after its first `:`, split at `,`. -/
def primaryKeys (seg : List Char) : List (List Char) :=
  Text.splitAt ',' (seg.dropWhile (· != ':')).tail

/-- The first problem of a segment, checked in order: no `:` at all, an empty table name, an
empty primary key. -/
def problem? (seg : List Char) : Option KeyProblem :=
  if ':' ∉ seg then some .missingTableSeparator
  else if table seg = [] then some .emptyTableName
  else if [] ∈ primaryKeys seg then some .emptyPrimaryKey
  else none

/-- The rows a segment names: its table with each of its primary keys. -/
def rows (seg : List Char) : List (String × String) :=
  (primaryKeys seg).map fun pk => (String.ofList (table seg), String.ofList pk)

/-- The rows a lock key names, each once, in the order they are first named. -/
def namedRows (key : String) : List (String × String) :=
  ((segments key).flatMap rows).eraseDups

end LockKey

/-- Naming a row again changes nothing about the rows named once, in order of first
mention. -/
theorem List.eraseDups_append_cons_of_mem {α : Type} [BEq α] [LawfulBEq α] {a : α}
    {as rest : List α} (ha : a ∈ as) : (as ++ a :: rest).eraseDups = (as ++ rest).eraseDups := by
  have hdrop : (rest.removeAll (as ++ [a])) = rest.removeAll as := by
    simp only [List.removeAll, List.elem_eq_mem, List.mem_append, List.mem_singleton]
    refine List.filter_congr fun x _ => ?_
    by_cases hx : x = a
    · subst hx
      simp [ha]
    · simp [hx]
  have hone : ([a].removeAll as) = [] := by simp [List.removeAll, ha]
  rw [← List.singleton_append, ← List.append_assoc, List.eraseDups_append, List.eraseDups_append,
    hone, hdrop, List.eraseDups_append]
  simp

/-- Naming a new row puts it last. -/
theorem List.eraseDups_append_singleton_of_not_mem {α : Type} [BEq α] [LawfulBEq α] {a : α}
    {as : List α} (ha : a ∉ as) : (as ++ [a]).eraseDups = as.eraseDups ++ [a] := by
  rw [List.eraseDups_append]
  simp [List.removeAll, ha, List.eraseDups_cons]

namespace RowLock

variable {o : LockOwner} {key : String}

/-- The row lock of `o` for a named row. -/
def ofRow (o : LockOwner) (r : String × String) : RowLock := ofOwner o r.1 r.2

theorem any_ofRow_iff (o : LockOwner) (rs : List (String × String)) (table pk : String) :
    (rs.map (ofRow o)).any (fun l => l.tableName == table && l.pk == pk) = true ↔
      (table, pk) ∈ rs := by
  simp [ofRow, ofOwner]

/-- Adding the rows of one table to the rows `rs` named before: it fails at an empty primary
key, and otherwise names the table's rows after `rs`, each once.  By induction on the primary
keys, with the rows added so far named once, in order. -/
theorem addTableRows_eq (table : String) :
    ∀ (pks : List (List Char)) (rs : List (String × String)),
      addTableRows o key table pks (rs.eraseDups.map (ofRow o)) =
        if [] ∈ pks then .error (.invalidKey key .emptyPrimaryKey)
        else .ok ((rs ++ pks.map fun pk => (table, String.ofList pk)).eraseDups.map (ofRow o))
  | [], rs => by simp [addTableRows]
  | pk :: pks, rs => by
    unfold addTableRows
    by_cases hpk : pk = []
    · simp [hpk]
    · have hmem : ([] ∈ pk :: pks) = ([] ∈ pks) := by simp [Ne.symm hpk]
      simp only [List.isEmpty_iff, hpk, if_false, any_ofRow_iff, List.mem_eraseDups, hmem,
        List.map_cons]
      split
      · -- a row named before: skipped
        rename_i hin
        rw [addTableRows_eq table pks rs, List.eraseDups_append_cons_of_mem hin]
      · -- a new row: named last
        rename_i hin
        have hnew : (table, String.ofList pk) ∉ rs := by simpa using hin
        have hacc : rs.eraseDups.map (ofRow o) ++ [ofOwner o table (String.ofList pk)] =
            (rs ++ [(table, String.ofList pk)]).eraseDups.map (ofRow o) := by
          rw [List.eraseDups_append_singleton_of_not_mem hnew, List.map_append]
          rfl
        rw [hacc, addTableRows_eq table pks, List.append_assoc, List.singleton_append]

/-- Adding the rows of each segment in turn to the rows `rs` named before: it fails with the
first problem of the first segment that has one, and otherwise names the segments' rows after
`rs`, each once.  By induction on the segments. -/
theorem addSegments_eq :
    ∀ (segs : List (List Char)) (rs : List (String × String)),
      addSegments o key segs (rs.eraseDups.map (ofRow o)) =
        match segs.findSome? LockKey.problem? with
        | some p => .error (.invalidKey key p)
        | none => .ok ((rs ++ segs.flatMap LockKey.rows).eraseDups.map (ofRow o))
  | [], rs => by simp [addSegments]
  | seg :: segs, rs => by
    unfold addSegments
    rw [Text.splitFirst?_eq, List.findSome?_cons]
    by_cases hsep : ':' ∈ seg
    · rw [if_pos hsep]
      dsimp only
      by_cases htab : LockKey.table seg = []
      · -- the table name is empty
        have hp : LockKey.problem? seg = some .emptyTableName := by
          simp [LockKey.problem?, hsep, htab]
        simp only [LockKey.table] at htab
        simp [htab, hp]
      · have htab' : (seg.takeWhile (· != ':')).isEmpty = false := by
          simpa [LockKey.table] using htab
        rw [if_neg (by simp [htab'])]
        show (addTableRows o key _ (LockKey.primaryKeys seg) _ >>= _) = _
        rw [addTableRows_eq]
        by_cases hpk : [] ∈ LockKey.primaryKeys seg
        · -- a primary key is empty
          have hp : LockKey.problem? seg = some .emptyPrimaryKey := by
            simp [LockKey.problem?, hsep, htab, hpk]
          rw [if_pos hpk, hp]
          rfl
        · -- the segment is well formed: its rows are named, then the rest
          have hp : LockKey.problem? seg = none := by
            simp [LockKey.problem?, hsep, htab, hpk]
          rw [if_neg hpk, hp]
          show addSegments o key segs _ = _
          rw [addSegments_eq segs, List.flatMap_cons, ← List.append_assoc]
          rfl
    · -- no table separator
      have hp : LockKey.problem? seg = some .missingTableSeparator := by
        simp [LockKey.problem?, hsep]
      rw [if_neg hsep, hp]

/-- Expanding a lock key reads it by its grammar: it fails with the first problem of the first
segment that has one, and otherwise gives the owner every row the key names, each once, in the
order they are first named. -/
theorem expand_eq (o : LockOwner) (key : String) :
    expand o key =
      match (LockKey.segments key).findSome? LockKey.problem? with
      | some p => .error (.invalidKey key p)
      | none => .ok ((LockKey.namedRows key).map (ofRow o)) := by
  have h := @addSegments_eq o key (LockKey.segments key) []
  simp only [List.eraseDups_nil, List.map_nil, List.nil_append] at h
  exact h

/-- A lock key is accepted exactly when every segment reads `table:pks` with a table name and
no empty primary key; the owner then gets one row lock per row named, in the order the rows are
first named.  Otherwise the key is refused with the first problem of the first segment that
has one. -/
theorem expand_accepts_exactly_grammar (o : LockOwner) (key : String) :
    (∀ ls, expand o key = .ok ls ↔
      (∀ seg ∈ LockKey.segments key, LockKey.problem? seg = none) ∧
        ls = (LockKey.namedRows key).map (ofRow o)) ∧
    (∀ e, expand o key = .error e ↔
      ∃ pre seg post p, LockKey.segments key = pre ++ seg :: post ∧
        (∀ s ∈ pre, LockKey.problem? s = none) ∧ LockKey.problem? seg = some p ∧
        e = .invalidKey key p) := by
  rw [expand_eq]
  cases hp : (LockKey.segments key).findSome? LockKey.problem? with
  | none =>
    have hok : ∀ seg ∈ LockKey.segments key, LockKey.problem? seg = none :=
      List.findSome?_eq_none_iff.1 hp
    refine ⟨fun ls => ?_, fun e => ?_⟩
    · simp only [Except.ok.injEq]
      exact ⟨fun h => ⟨hok, h.symm⟩, fun h => h.2.symm⟩
    · -- no segment has a problem, so none is the first
      simp only [reduceCtorEq, false_iff, not_exists, not_and]
      intro pre seg post p hsegs _ hseg _
      rw [hok seg (hsegs ▸ List.mem_append_right _ List.mem_cons_self)] at hseg
      cases hseg
  | some p =>
    obtain ⟨pre, seg, post, hsegs, hseg, hpre⟩ := List.findSome?_eq_some_iff.1 hp
    refine ⟨fun ls => ?_, fun e => ?_⟩
    · -- the segment `seg` has a problem
      simp only [reduceCtorEq, false_iff, not_and]
      intro hok
      rw [hok seg (hsegs ▸ List.mem_append_right _ List.mem_cons_self)] at hseg
      cases hseg
    · -- the first problem found is that of the first segment with one
      simp only [Except.error.injEq]
      constructor
      · rintro rfl
        exact ⟨pre, seg, post, p, hsegs, hpre, hseg, rfl⟩
      · rintro ⟨pre', seg', post', p', hsegs', hpre', hseg', rfl⟩
        have hfirst : (LockKey.segments key).findSome? LockKey.problem? = some p' :=
          List.findSome?_eq_some_iff.2 ⟨pre', seg', post', hsegs', hseg', hpre'⟩
        rw [hp, Option.some.injEq] at hfirst
        rw [hfirst]

/-- Rows named twice are locked once, in the order first named; a primary key may hold a `:`,
and a table name a `,`. -/
example : LockKey.namedRows "tb:1,2;tb2:a-b;tb:2;a,b:c:d" =
    [("tb", "1"), ("tb", "2"), ("tb2", "a-b"), ("a,b", "c:d")] := by
  decide

/-- An empty primary key between two commas. -/
example : expand ⟨"tc:1", 1, 11, "db"⟩ "tb:1,,2" = .error (.invalidKey "tb:1,,2" .emptyPrimaryKey) := by
  decide

end RowLock

end GlobalTxn
