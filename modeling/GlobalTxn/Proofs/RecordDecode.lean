import Mathlib
import GlobalTxn.Proofs.RecordRoundTrip

/-! # Which session records are corrupted

A session record holds its statuses and branch types as integer codes, and any integer may
stand there.  Turning a record into a session checks the codes in a fixed order: the session's
status first, then the branches in turn, each branch's type before its status.  The first code
that names nothing is the record's defect (`SessionRecord.Defect`), and it alone is reported,
as a corrupted record.

A record without a defect gives a session whose record is the record itself, its timeout
included as long as it fits the 64-bit word it is stored in: reading a record and writing it
back changes nothing.

Main statements: `SessionRecord.toSession_eq_error_iff` (the failures and their messages),
`SessionRecord.toSession_isOk_iff` (the records that are read),
`SessionRecord.ofSession_of_toSession` (writing back what was read), and
`SessionRecord.toSession_exact`, which puts the three together.
-/

namespace GlobalTxn

/-! ## Codes read back -/

theorem GlobalStatus.code_of_ofCode? {c : Int} {s : GlobalStatus}
    (h : GlobalStatus.ofCode? c = some s) : s.code = c := by
  simpa using List.find?_some h

theorem GlobalStatus.ofCode?_eq_none_iff (c : Int) :
    GlobalStatus.ofCode? c = none ↔ ¬ ∃ s : GlobalStatus, s.code = c := by
  constructor
  · rintro h ⟨s, rfl⟩
    rw [ofCode?_code] at h
    cases h
  · intro h
    cases hc : GlobalStatus.ofCode? c with
    | none => rfl
    | some s => exact absurd ⟨s, code_of_ofCode? hc⟩ h

theorem BranchStatus.code_of_ofCode? {c : Int} {s : BranchStatus}
    (h : BranchStatus.ofCode? c = some s) : s.code = c := by
  simpa using List.find?_some h

theorem BranchStatus.ofCode?_eq_none_iff (c : Int) :
    BranchStatus.ofCode? c = none ↔ ¬ ∃ s : BranchStatus, s.code = c := by
  constructor
  · rintro h ⟨s, rfl⟩
    rw [ofCode?_code] at h
    cases h
  · intro h
    cases hc : BranchStatus.ofCode? c with
    | none => rfl
    | some s => exact absurd ⟨s, code_of_ofCode? hc⟩ h

theorem BranchType.code_of_ofCode? {c : Int} {t : BranchType}
    (h : BranchType.ofCode? c = some t) : t.code = c := by
  simpa using List.find?_some h

theorem BranchType.ofCode?_eq_none_iff (c : Int) :
    BranchType.ofCode? c = none ↔ ¬ ∃ t : BranchType, t.code = c := by
  constructor
  · rintro h ⟨t, rfl⟩
    rw [ofCode?_code] at h
    cases h
  · intro h
    cases hc : BranchType.ofCode? c with
    | none => rfl
    | some t => exact absurd ⟨t, code_of_ofCode? hc⟩ h

/-! ## Lists mapped by a computation that may fail -/

section MapM

variable {ε α β : Type} {f : α → Except ε β}

/-- An element of `a :: l` that comes first of those with `q`, all before it having `p`, is
`a` itself or such an element of `l`. -/
theorem exists_split_cons {p q : α → Prop} {a : α} {l : List α} :
    (∃ pre b post, a :: l = pre ++ b :: post ∧ (∀ x ∈ pre, p x) ∧ q b) ↔
      q a ∨ p a ∧ ∃ pre b post, l = pre ++ b :: post ∧ (∀ x ∈ pre, p x) ∧ q b := by
  constructor
  · rintro ⟨pre, b, post, hl, hpre, hb⟩
    rcases List.cons_eq_append_iff.1 hl with ⟨rfl, hbl⟩ | ⟨pre', rfl, hl'⟩
    · obtain ⟨rfl, rfl⟩ := List.cons.inj hbl
      exact .inl hb
    · exact .inr ⟨hpre a (by simp), pre', b, post, hl', fun x hx => hpre x (by simp [hx]), hb⟩
  · rintro (ha | ⟨ha, pre, b, post, rfl, hpre, hb⟩)
    · exact ⟨[], a, l, rfl, by simp, ha⟩
    · refine ⟨a :: pre, b, post, rfl, ?_, hb⟩
      rintro x (_ | ⟨_, hx⟩)
      · exact ha
      · exact hpre x hx

/-- Mapping a list fails with the failure of its first element that fails. -/
theorem mapM_except_eq_error_iff {l : List α} {e : ε} :
    l.mapM f = .error e ↔
      ∃ pre a post, l = pre ++ a :: post ∧ (∀ x ∈ pre, ∃ v, f x = .ok v) ∧ f a = .error e := by
  induction l with
  | nil => simp [pure, Except.pure]
  | cons a l ih =>
    rw [List.mapM_cons, exists_split_cons, ← ih]
    cases f a with
    | error e' => simp [bind, Except.bind]
    | ok v => cases l.mapM f <;> simp [bind, Except.bind, pure, Except.pure]

/-- Mapping a list succeeds exactly when every element is mapped. -/
theorem mapM_except_isOk_iff {l : List α} :
    (∃ vs, l.mapM f = .ok vs) ↔ ∀ a ∈ l, ∃ v, f a = .ok v := by
  induction l with
  | nil => simp [pure, Except.pure]
  | cons a l ih =>
    rw [List.mapM_cons, List.forall_mem_cons, ← ih]
    cases f a with
    | error e => simp [bind, Except.bind]
    | ok v => cases l.mapM f <;> simp [bind, Except.bind, pure, Except.pure]

/-- A list that is mapped has each element mapped to the value in its place. -/
theorem forall₂_of_mapM_except_eq_ok :
    ∀ {l : List α} {vs : List β}, l.mapM f = .ok vs →
      List.Forall₂ (fun a v => f a = .ok v) l vs
  | [], vs, h => by
    cases h
    exact .nil
  | a :: l, vs, h => by
    rw [List.mapM_cons] at h
    cases ha : f a with
    | error e => simp [ha, bind, Except.bind] at h
    | ok v =>
      cases hl : l.mapM f with
      | error e => simp [ha, hl, bind, Except.bind] at h
      | ok ws =>
        simp only [ha, hl, bind, Except.bind, pure, Except.pure, Except.ok.injEq] at h
        subst h
        exact .cons ha (forall₂_of_mapM_except_eq_ok hl)

end MapM

/-! ## Branch records -/

namespace BranchRecord

/-- The codes of a branch record name a branch type and a branch status. -/
def Known (r : BranchRecord) : Prop :=
  (∃ t : BranchType, t.code = r.branchType) ∧ ∃ s : BranchStatus, s.code = r.status

/-- The defect of a branch record of session `xid`, with the failure that reports it: a type
code that names no type, or else a status code that names no status. -/
inductive Defect (xid : String) (r : BranchRecord) : StoreError → Prop where
  | type (h : ¬ ∃ t : BranchType, t.code = r.branchType) :
    Defect xid r (.corrupted s!"branch {r.branchId} of {xid} has unknown type {r.branchType}")
  | status (ht : ∃ t : BranchType, t.code = r.branchType)
      (h : ¬ ∃ s : BranchStatus, s.code = r.status) :
    Defect xid r (.corrupted s!"branch {r.branchId} of {xid} has unknown status {r.status}")

variable {r : BranchRecord} {xid : String} {transactionId : Nat}

theorem toBranch_eq_error_iff {e : StoreError} :
    r.toBranch xid transactionId = .error e ↔ r.Defect xid e := by
  unfold toBranch
  cases ht : BranchType.ofCode? r.branchType with
  | none =>
    have hno := (BranchType.ofCode?_eq_none_iff _).1 ht
    simp only [throw, throwThe, MonadExceptOf.throw, Except.error.injEq]
    constructor
    · rintro rfl
      exact .type hno
    · rintro (_ | ⟨hyes, _⟩)
      · rfl
      · exact absurd hyes hno
  | some t =>
    have hyes : ∃ t : BranchType, t.code = r.branchType := ⟨t, BranchType.code_of_ofCode? ht⟩
    cases hs : BranchStatus.ofCode? r.status with
    | none =>
      have hno := (BranchStatus.ofCode?_eq_none_iff _).1 hs
      simp only [throw, throwThe, MonadExceptOf.throw, Except.error.injEq]
      constructor
      · rintro rfl
        exact .status hyes hno
      · rintro (hno' | _)
        · exact absurd hyes hno'
        · rfl
    | some s =>
      have hyes' : ∃ s : BranchStatus, s.code = r.status := ⟨s, BranchStatus.code_of_ofCode? hs⟩
      simp only [pure, Except.pure, reduceCtorEq, false_iff]
      rintro (hno | ⟨_, hno⟩)
      · exact hno hyes
      · exact hno hyes'

theorem toBranch_isOk_iff : (∃ b, r.toBranch xid transactionId = .ok b) ↔ r.Known := by
  unfold toBranch Known
  cases ht : BranchType.ofCode? r.branchType with
  | none => simp [(BranchType.ofCode?_eq_none_iff _).1 ht]
  | some t =>
    cases hs : BranchStatus.ofCode? r.status with
    | none => simp [(BranchStatus.ofCode?_eq_none_iff _).1 hs]
    | some s =>
      simp only [pure, Except.pure, Except.ok.injEq, exists_eq', true_iff]
      exact ⟨⟨t, BranchType.code_of_ofCode? ht⟩, ⟨s, BranchStatus.code_of_ofCode? hs⟩⟩

/-- A branch read from a record is written back as that record. -/
theorem ofBranch_of_toBranch {b : Branch} (h : r.toBranch xid transactionId = .ok b) :
    ofBranch b = r := by
  unfold toBranch at h
  cases ht : BranchType.ofCode? r.branchType with
  | none => simp [ht] at h
  | some t =>
    cases hs : BranchStatus.ofCode? r.status with
    | none => simp [ht, hs] at h
    | some s =>
      simp only [ht, hs, pure, Except.pure, Except.ok.injEq] at h
      subst h
      simp [ofBranch, BranchType.code_of_ofCode? ht, BranchStatus.code_of_ofCode? hs]

/-- Branches read from records are written back as those records. -/
theorem map_ofBranch_of_forall₂ {rs : List BranchRecord} {bs : List Branch}
    (h : List.Forall₂ (fun r b => r.toBranch xid transactionId = .ok b) rs bs) :
    bs.map ofBranch = rs := by
  induction h with
  | nil => rfl
  | cons hb _ ih => rw [List.map_cons, ofBranch_of_toBranch hb, ih]

end BranchRecord

/-! ## Session records -/

namespace SessionRecord

/-- The defect of a session record, with the failure that reports it: a status code that names
no status, or else the defect of the first branch record whose codes do not all name
something. -/
inductive Defect (r : SessionRecord) : StoreError → Prop where
  | status (h : ¬ ∃ s : GlobalStatus, s.code = r.status) :
    Defect r (.corrupted s!"{r.xid} has unknown status {r.status}")
  | branch {pre post : List BranchRecord} {b : BranchRecord} {e : StoreError}
      (hs : ∃ s : GlobalStatus, s.code = r.status) (hb : r.branches = pre ++ b :: post)
      (hpre : ∀ c ∈ pre, c.Known) (he : b.Defect r.xid e) :
    Defect r e

variable {r : SessionRecord}

/-- A record fails to be read exactly at its defect, with the failure that reports it. -/
theorem toSession_eq_error_iff (e : StoreError) : r.toSession = .error e ↔ r.Defect e := by
  have hbranches : r.branches.mapM (·.toBranch r.xid r.transactionId) = .error e ↔
      ∃ pre b post, r.branches = pre ++ b :: post ∧ (∀ c ∈ pre, c.Known) ∧ b.Defect r.xid e := by
    simp only [mapM_except_eq_error_iff, BranchRecord.toBranch_isOk_iff,
      BranchRecord.toBranch_eq_error_iff]
  unfold toSession
  cases hst : GlobalStatus.ofCode? r.status with
  | none =>
    have hno := (GlobalStatus.ofCode?_eq_none_iff _).1 hst
    simp only [throw, throwThe, MonadExceptOf.throw, Except.error.injEq]
    constructor
    · rintro rfl
      exact .status hno
    · rintro (_ | ⟨hyes, _, _, _⟩)
      · rfl
      · exact absurd hyes hno
  | some st =>
    have hyes : ∃ s : GlobalStatus, s.code = r.status := ⟨st, GlobalStatus.code_of_ofCode? hst⟩
    -- past the status, only the branches can fail
    have hdefect : r.Defect e ↔
        ∃ pre b post, r.branches = pre ++ b :: post ∧ (∀ c ∈ pre, c.Known) ∧ b.Defect r.xid e := by
      constructor
      · rintro (hno | ⟨_, hb, hpre, he⟩)
        · exact absurd hyes hno
        · exact ⟨_, _, _, hb, hpre, he⟩
      · rintro ⟨pre, b, post, hb, hpre, he⟩
        exact .branch hyes hb hpre he
    rw [hdefect, ← hbranches]
    cases r.branches.mapM (·.toBranch r.xid r.transactionId) <;>
      simp [bind, Except.bind, pure, Except.pure]

/-- A record is read exactly when its status and every code of its branches name
something. -/
theorem toSession_isOk_iff :
    (∃ s, r.toSession = .ok s) ↔
      (∃ s : GlobalStatus, s.code = r.status) ∧ ∀ b ∈ r.branches, b.Known := by
  have hbranches := mapM_except_isOk_iff (f := (·.toBranch r.xid r.transactionId)) (l := r.branches)
  simp only [BranchRecord.toBranch_isOk_iff] at hbranches
  unfold toSession
  cases hst : GlobalStatus.ofCode? r.status with
  | none => simp [(GlobalStatus.ofCode?_eq_none_iff _).1 hst]
  | some st =>
    have hyes : ∃ s : GlobalStatus, s.code = r.status := ⟨st, GlobalStatus.code_of_ofCode? hst⟩
    rw [← hbranches]
    simp only [hyes, true_and]
    cases r.branches.mapM (·.toBranch r.xid r.transactionId) <;>
      simp [bind, Except.bind, pure, Except.pure]

/-- The record of a session read from a record is that record, with its timeout saturated to
the largest 64-bit number of milliseconds. -/
theorem ofSession_of_toSession {s : GlobalSession} (h : r.toSession = .ok s) :
    ofSession s = { r with timeoutMillis := millisOf r.timeoutMillis } := by
  unfold toSession at h
  cases hst : GlobalStatus.ofCode? r.status with
  | none => simp [hst] at h
  | some st =>
    cases hbs : r.branches.mapM (·.toBranch r.xid r.transactionId) with
    | error e => simp [hst, hbs, bind, Except.bind] at h
    | ok bs =>
      simp only [hst, hbs, bind, Except.bind, pure, Except.pure, Except.ok.injEq] at h
      subst h
      have hmap := BranchRecord.map_ofBranch_of_forall₂ (forall₂_of_mapM_except_eq_ok hbs)
      obtain ⟨x, t, app, grp, name, status, tm, bt, gu, data, branches⟩ := r
      simp only at hst hmap
      simp [ofSession, GlobalSession.new, hmap, GlobalStatus.code_of_ofCode? hst]

/-- Records are read exactly as their codes allow: a record fails at its first defect, as a
corrupted record reporting that defect; it is read when it has none; and what is read is
written back as the record itself, when its timeout fits a 64-bit word of milliseconds. -/
theorem toSession_exact (r : SessionRecord) :
    (∀ e, r.toSession = .error e ↔ r.Defect e) ∧
    ((∃ s, r.toSession = .ok s) ↔
      (∃ s : GlobalStatus, s.code = r.status) ∧ ∀ b ∈ r.branches, b.Known) ∧
    ∀ s, r.toSession = .ok s → r.timeoutMillis ≤ Millis.max → ofSession s = r := by
  refine ⟨toSession_eq_error_iff, toSession_isOk_iff, fun s hs hfit => ?_⟩
  rw [ofSession_of_toSession hs, millisOf_of_le hfit]

end SessionRecord

/-- A record of a session retrying its commit, with one branch, is read and written back as
itself. -/
theorem SessionRecord.toSession_exact_retrying :
    ∃ s, SessionRecord.toSession
        { xid := "tc:7", transactionId := 7, status := 3, timeoutMillis := 1500,
          beginTime := 100, gmtUpdated := 130,
          branches := [{ branchId := 3, resourceId := "db", branchType := 0, status := 2,
                         lockKey := "t:1", beginTime := 100 }] } = .ok s ∧
      SessionRecord.ofSession s =
        { xid := "tc:7", transactionId := 7, status := 3, timeoutMillis := 1500,
          beginTime := 100, gmtUpdated := 130,
          branches := [{ branchId := 3, resourceId := "db", branchType := 0, status := 2,
                         lockKey := "t:1", beginTime := 100 }] } :=
  ⟨_, rfl, (SessionRecord.toSession_exact _).2.2 _ rfl (by decide)⟩

end GlobalTxn
