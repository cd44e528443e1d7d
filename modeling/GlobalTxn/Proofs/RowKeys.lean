import Mathlib
import GlobalTxn.Proofs.LockKeyGrammar
import GlobalTxn.Proofs.EtcdUriGrammar
import GlobalTxn.Lock.Table

/-! # When two rows share a store key

A lock store files a row under `resource^^^table^^^pk` (`rowKey`), and nothing keeps a `^` out
of a resource, a table name or a primary key.  So one key can name two rows: table `t^` with
primary key `1` and table `t` with primary key `^1` are both filed under `db^^^t^^^^1`
(`rowKey_names_two_rows`), and a store that holds the one reports the other held.

Where a text is cut at a `^^^` in two places, the longer part before the cut and the longer
part after it both hold a `^` (`eq_or_carets_of_append_sep_eq`).  Hence two rows of one
resource share a key only if they are the same row, or the table name of one and the primary
key of the other hold a `^` (`rowKey_eq_of_same_resource`); and resources without a `^`,
together with table names (or primary keys) without one, make the key name one row
(`rowKey_inj`).  A lock key names each of its rows once, so its row locks are distinct rows,
whose keys are distinct unless a `^` meets a `^` as above; a lock key without a `^` gives rows
with distinct keys (`RowLock.expand_rowKeys_nodup`), as a store that locks all rows in one
transaction needs.

Main statement: `rowKeys_collide_only_through_carets`.
-/

namespace GlobalTxn

/-- A list with its repeats erased names each element once.  By induction on the length: the
head is kept and its repeats filtered out of the tail. -/
theorem List.nodup_eraseDups {α : Type} [BEq α] [LawfulBEq α] : ∀ l : List α, l.eraseDups.Nodup
  | [] => List.nodup_nil
  | a :: as => by
    rw [List.eraseDups_cons, List.nodup_cons]
    exact ⟨by simp [List.mem_eraseDups], List.nodup_eraseDups (as.filter fun b => !b == a)⟩
termination_by l => l.length
decreasing_by exact Nat.lt_add_one_of_le (List.length_filter_le _ as)

/-! ## Cutting a text at `^^^` -/

/-- A `^^^` that lies further on in a text than another `^^^` leaves a `^` in the part between
them and in the part after the first. -/
theorem carets_of_sep_shifted {p p' a : List Char} {x : Char}
    (h : '^' :: '^' :: '^' :: p = x :: (a ++ '^' :: '^' :: '^' :: p')) :
    '^' ∈ x :: a ∧ '^' ∈ p := by
  obtain ⟨rfl, hp⟩ := List.cons.inj h
  refine ⟨List.mem_cons_self, ?_⟩
  -- the first `^^^` overlaps the second by two, one or no characters
  rcases a with _ | ⟨y, _ | ⟨z, rest⟩⟩ <;> simp at hp <;> simp [hp]

/-- A text cut at a `^^^` in two ways: the parts agree, or the longer part before the cut and
the longer part after it both hold a `^`. -/
theorem eq_or_carets_of_append_sep_eq {t p t' p' : List Char}
    (h : t ++ '^' :: '^' :: '^' :: p = t' ++ '^' :: '^' :: '^' :: p') :
    (t = t' ∧ p = p') ∨ ('^' ∈ t' ∧ '^' ∈ p) ∨ ('^' ∈ t ∧ '^' ∈ p') := by
  rcases List.append_eq_append_iff.1 h with ⟨a, rfl, ha⟩ | ⟨c, rfl, hc⟩
  · -- the cut of `t'` lies at or after that of `t`
    rcases a with _ | ⟨x, a⟩
    · simp_all
    · obtain ⟨hx, hp⟩ := carets_of_sep_shifted (by simpa using ha)
      exact .inr (.inl ⟨List.mem_append_right _ hx, hp⟩)
  · -- the cut of `t` lies after that of `t'`
    rcases c with _ | ⟨x, c⟩
    · simp_all
    · obtain ⟨hx, hp⟩ := carets_of_sep_shifted (by simpa using hc)
      exact .inr (.inr ⟨List.mem_append_right _ hx, hp⟩)

/-! ## Store keys -/

theorem toList_rowKey (r t p : String) :
    (rowKey r t p).toList =
      r.toList ++ '^' :: '^' :: '^' :: (t.toList ++ '^' :: '^' :: '^' :: p.toList) := by
  simp [rowKey]

/-- Two rows of one resource share a store key only if they are the same row, or the table
name of one and the primary key of the other hold a `^`. -/
theorem rowKey_eq_of_same_resource {r t p t' p' : String} (h : rowKey r t p = rowKey r t' p') :
    (t = t' ∧ p = p') ∨ ('^' ∈ t'.toList ∧ '^' ∈ p.toList) ∨ ('^' ∈ t.toList ∧ '^' ∈ p'.toList) := by
  have hkey := congrArg String.toList h
  rw [toList_rowKey, toList_rowKey] at hkey
  have htail : t.toList ++ '^' :: '^' :: '^' :: p.toList = t'.toList ++ '^' :: '^' :: '^' :: p'.toList :=
    List.tail_eq_of_cons_eq (List.tail_eq_of_cons_eq (List.tail_eq_of_cons_eq
      (List.append_cancel_left hkey)))
  simpa only [String.toList_inj] using eq_or_carets_of_append_sep_eq htail

/-- A store key names one row when neither resource holds a `^`, and neither table name or
neither primary key does: the resource ends at the first `^^^`, and the table name at the
first (or the primary key after the last) `^^^` that follows. -/
theorem rowKey_inj {r t p r' t' p' : String} (hr : '^' ∉ r.toList) (hr' : '^' ∉ r'.toList)
    (htp : ('^' ∉ t.toList ∧ '^' ∉ t'.toList) ∨ ('^' ∉ p.toList ∧ '^' ∉ p'.toList))
    (h : rowKey r t p = rowKey r' t' p') : r = r' ∧ t = t' ∧ p = p' := by
  have hkey := congrArg String.toList h
  rw [toList_rowKey, toList_rowKey] at hkey
  rcases eq_or_carets_of_append_sep_eq hkey with ⟨hres, hrest⟩ | ⟨hc, -⟩ | ⟨hc, -⟩
  · rcases eq_or_carets_of_append_sep_eq hrest with ⟨ht, hp⟩ | ⟨ht, hp⟩ | ⟨ht, hp⟩
    · exact ⟨String.toList_inj.1 hres, String.toList_inj.1 ht, String.toList_inj.1 hp⟩
    · rcases htp with ⟨-, ht'⟩ | ⟨hp', -⟩
      · exact absurd ht ht'
      · exact absurd hp hp'
    · rcases htp with ⟨ht', -⟩ | ⟨-, hp'⟩
      · exact absurd ht ht'
      · exact absurd hp hp'
  · exact absurd hc hr'
  · exact absurd hc hr

/-! ## The rows of a lock key -/

theorem LockKey.namedRows_nodup (key : String) : (LockKey.namedRows key).Nodup :=
  List.nodup_eraseDups _

namespace RowLock

@[simp] theorem ofRow_tableName (o : LockOwner) (r : String × String) :
    (ofRow o r).tableName = r.1 := rfl

@[simp] theorem ofRow_pk (o : LockOwner) (r : String × String) : (ofRow o r).pk = r.2 := rfl

theorem ofRow_rowKey (o : LockOwner) (r : String × String) :
    (ofRow o r).rowKey = GlobalTxn.rowKey o.resourceId r.1 r.2 := rfl

theorem eq_of_expand_eq_ok {o : LockOwner} {key : String} {ls : List RowLock}
    (h : expand o key = .ok ls) : ls = (LockKey.namedRows key).map (ofRow o) := by
  rw [expand_eq] at h
  split at h
  · cases h
  · exact (Except.ok.inj h).symm

/-- The row locks of a lock key are distinct rows, and two of them share a store key only if
the table name of one and the primary key of the other hold a `^`. -/
theorem expand_rows_pairwise {o : LockOwner} {key : String} {ls : List RowLock}
    (h : expand o key = .ok ls) :
    ls.Pairwise fun l l' => (l.tableName, l.pk) ≠ (l'.tableName, l'.pk) ∧
      (l.rowKey = l'.rowKey → ('^' ∈ l'.tableName.toList ∧ '^' ∈ l.pk.toList) ∨
        ('^' ∈ l.tableName.toList ∧ '^' ∈ l'.pk.toList)) := by
  rw [eq_of_expand_eq_ok h, List.pairwise_map]
  refine List.Pairwise.imp (fun {a b} hab => ⟨by simpa using hab, fun hk => ?_⟩)
    (LockKey.namedRows_nodup key)
  rw [ofRow_rowKey, ofRow_rowKey] at hk
  rcases rowKey_eq_of_same_resource hk with ⟨ht, hp⟩ | hc | hc
  · exact absurd (Prod.ext ht hp) hab
  · exact .inl hc
  · exact .inr hc

/-- The table name of a row a lock key names is made of characters of the key. -/
theorem table_subset_of_mem_namedRows {key : String} {r : String × String}
    (hr : r ∈ LockKey.namedRows key) : r.1.toList ⊆ key.toList := by
  simp only [LockKey.namedRows, List.mem_eraseDups, List.mem_flatMap, LockKey.rows,
    List.mem_map] at hr
  obtain ⟨seg, hseg, pk, -, rfl⟩ := hr
  have hseg : seg ⊆ key.toList := Text.subset_of_mem_splitAt (List.mem_filter.1 hseg).1
  -- the table name is the text of its segment before the first `:`
  simpa [LockKey.table] using List.Subset.trans (List.takeWhile_sublist _).subset hseg

/-- The row locks of a lock key without a `^` have distinct store keys: two keys meet only
where a table name holds a `^`. -/
theorem expand_rowKeys_nodup {o : LockOwner} {key : String} {ls : List RowLock}
    (h : expand o key = .ok ls) (hkey : '^' ∉ key.toList) : (ls.map (·.rowKey)).Nodup := by
  have htables : ∀ l ∈ ls, '^' ∉ l.tableName.toList := by
    rw [eq_of_expand_eq_ok h]
    intro l hl hc
    obtain ⟨r, hr, rfl⟩ := List.mem_map.1 hl
    exact hkey (table_subset_of_mem_namedRows hr hc)
  rw [List.Nodup, List.pairwise_map]
  refine List.Pairwise.imp_of_mem (fun {l l'} hl hl' hapart hk => ?_) (expand_rows_pairwise h)
  rcases hapart.2 hk with ⟨hc, -⟩ | ⟨hc, -⟩
  · exact htables l' hl' hc
  · exact htables l hl hc

end RowLock

/-- Store keys name rows up to a `^`.  The row locks of a lock key are distinct rows, and two
of them share a store key only if the table name of one and the primary key of the other hold a
`^`.  A store key names one row when neither resource holds a `^` and neither table name or
neither primary key does. -/
theorem rowKeys_collide_only_through_carets (o : LockOwner) (key : String) (ls : List RowLock)
    (r t p r' t' p' : String) :
    (RowLock.expand o key = .ok ls →
      ls.Pairwise fun l l' => (l.tableName, l.pk) ≠ (l'.tableName, l'.pk) ∧
        (l.rowKey = l'.rowKey → ('^' ∈ l'.tableName.toList ∧ '^' ∈ l.pk.toList) ∨
          ('^' ∈ l.tableName.toList ∧ '^' ∈ l'.pk.toList))) ∧
    ('^' ∉ r.toList → '^' ∉ r'.toList →
      ('^' ∉ t.toList ∧ '^' ∉ t'.toList) ∨ ('^' ∉ p.toList ∧ '^' ∉ p'.toList) →
      (rowKey r t p = rowKey r' t' p' ↔ r = r' ∧ t = t' ∧ p = p')) := by
  refine ⟨RowLock.expand_rows_pairwise, fun hr hr' htp => ⟨rowKey_inj hr hr' htp, ?_⟩⟩
  rintro ⟨rfl, rfl, rfl⟩
  rfl

/-- The rows of `t^:1;t:^1`, distinct rows whose keys meet where a table name's `^` meets a
primary key's; and the keys of two tables of one resource. -/
theorem rowKeys_collide_only_through_carets_at_caret_key :
    (RowLock.expand ⟨"tc:1", 1, 11, "db"⟩ "t^:1;t:^1" =
        .ok [RowLock.ofOwner ⟨"tc:1", 1, 11, "db"⟩ "t^" "1",
          RowLock.ofOwner ⟨"tc:1", 1, 11, "db"⟩ "t" "^1"] ∧
      [RowLock.ofOwner ⟨"tc:1", 1, 11, "db"⟩ "t^" "1",
          RowLock.ofOwner ⟨"tc:1", 1, 11, "db"⟩ "t" "^1"].Pairwise fun l l' =>
        (l.tableName, l.pk) ≠ (l'.tableName, l'.pk) ∧
          (l.rowKey = l'.rowKey → ('^' ∈ l'.tableName.toList ∧ '^' ∈ l.pk.toList) ∨
            ('^' ∈ l.tableName.toList ∧ '^' ∈ l'.pk.toList))) ∧
    ('^' ∉ "db".toList ∧ ('^' ∉ "t".toList ∧ '^' ∉ "u".toList) ∧
      (rowKey "db" "t" "1" = rowKey "db" "u" "1" ↔ "db" = "db" ∧ "t" = "u" ∧ "1" = "1")) := by
  have hexpand : RowLock.expand ⟨"tc:1", 1, 11, "db"⟩ "t^:1;t:^1" =
      .ok [RowLock.ofOwner ⟨"tc:1", 1, 11, "db"⟩ "t^" "1",
        RowLock.ofOwner ⟨"tc:1", 1, 11, "db"⟩ "t" "^1"] := by
    decide
  have hdb : '^' ∉ "db".toList := by decide
  have htu : '^' ∉ "t".toList ∧ '^' ∉ "u".toList := by decide
  obtain ⟨hrows, hkeys⟩ := rowKeys_collide_only_through_carets ⟨"tc:1", 1, 11, "db"⟩ "t^:1;t:^1"
    [RowLock.ofOwner ⟨"tc:1", 1, 11, "db"⟩ "t^" "1", RowLock.ofOwner ⟨"tc:1", 1, 11, "db"⟩ "t" "^1"]
    "db" "t" "1" "db" "u" "1"
  exact ⟨⟨hexpand, hrows hexpand⟩, ⟨hdb, htu, hkeys hdb hdb (.inl htu)⟩⟩

/-- The lock key `t^:1;t:^1` names two rows, table `t^` with primary key `1` and table `t`
with primary key `^1`, both filed under `db^^^t^^^^1`: once a transaction locks the first,
the store reports the second held by it. -/
theorem rowKey_names_two_rows :
    RowLock.expand ⟨"tc:1", 0, 0, "db"⟩ "t^:1;t:^1" =
        .ok [RowLock.ofOwner ⟨"tc:1", 0, 0, "db"⟩ "t^" "1",
          RowLock.ofOwner ⟨"tc:1", 0, 0, "db"⟩ "t" "^1"] ∧
      rowKey "db" "t^" "1" = rowKey "db" "t" "^1" ∧
      (({} : LockTable).acquire [RowLock.ofOwner ⟨"tc:1", 0, 0, "db"⟩ "t^" "1"]).2.owner?
        (rowKey "db" "t" "^1") = some ⟨"tc:1", 0, 0⟩ := by
  decide

end GlobalTxn
