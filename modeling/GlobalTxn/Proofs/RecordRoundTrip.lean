import Mathlib
import GlobalTxn.Proofs.WireRoundTrip
import GlobalTxn.Record.Session
import GlobalTxn.Record.Holder

/-! # Records read back

A session is stored as its record, and a held row as the record of its holder.  This module
says what survives the trip.

Through the record, a session comes back as `GlobalSession.asStored` says: its timeout in whole
milliseconds, saturated, and every branch in the session's xid and transaction id, since a
branch record stores neither.  Everything else is kept, statuses and branch types included,
since each is read back from its code.  So a session comes back unchanged exactly when its
timeout is a whole number of milliseconds within range and its branches carry its own ids.

Through the bytes, a record is read back as it was written as long as its numbers fit the words
they are written in (`Fits`): holder records (`LockHolder.decode_encode`) and session records
with their branches (`SessionRecord.decode_encode`).

Both formats are instances of `Wire.Codec` that meet its round-trip law
(`SessionRecord.codec_roundTrips`, `LockHolder.codec_roundTrips`); the statements that go
through the bytes (`GlobalSession.record_roundTrip` here, and those of the etcd lock store) are
stated over any codec that meets it.

Main statements: `SessionRecord.toSession_ofSession`, `GlobalSession.asStored_eq_self_iff`,
`SessionRecord.decode_encode`, `LockHolder.decode_encode` and
`GlobalSession.record_roundTrip`.
-/

namespace GlobalTxn

/-! ## Sessions through their records -/

/-- A session as its record gives it back: the timeout in whole milliseconds, saturated, and
every branch in the session's xid and transaction id. -/
def GlobalSession.asStored (s : GlobalSession) : GlobalSession :=
  { s with
    timeout := Duration.ofMillis s.timeout.millis
    branches := s.branches.map fun b => { b with xid := s.xid, transactionId := s.transactionId } }

/-- A span comes back from its whole milliseconds exactly when it is a whole number of
milliseconds within range. -/
theorem Duration.ofMillis_millis_eq_iff (d : Duration) :
    Duration.ofMillis d.millis = d ↔ ∃ ms ≤ Millis.max, d = Duration.ofMillis ms := by
  constructor
  · intro h
    exact ⟨d.millis, millisOf_le _, h.symm⟩
  · rintro ⟨ms, hms, rfl⟩
    rw [Duration.millis_ofMillis, millisOf_of_le hms]

/-- Storing a session changes nothing exactly when its timeout is a whole number of milliseconds
within range and its branches carry its own xid and transaction id. -/
theorem GlobalSession.asStored_eq_self_iff (s : GlobalSession) :
    s.asStored = s ↔ (∃ ms ≤ Millis.max, s.timeout = Duration.ofMillis ms) ∧
      ∀ b ∈ s.branches, b.xid = s.xid ∧ b.transactionId = s.transactionId := by
  have hbranch (b : Branch) :
      { b with xid := s.xid, transactionId := s.transactionId } = b ↔
        b.xid = s.xid ∧ b.transactionId = s.transactionId := by
    cases b
    simp [eq_comm]
  have hbranches :
      s.branches.map (fun b => { b with xid := s.xid, transactionId := s.transactionId }) =
        s.branches ↔ ∀ b ∈ s.branches, b.xid = s.xid ∧ b.transactionId = s.transactionId := by
    conv => lhs; rhs; rw [← List.map_id s.branches]
    simp only [List.map_inj_left, id, hbranch]
  rw [← Duration.ofMillis_millis_eq_iff, ← hbranches]
  cases s
  simp [asStored]

namespace BranchRecord

/-- A branch comes back from its record in the session it is read for. -/
theorem toBranch_ofBranch (b : Branch) (xid : String) (transactionId : Nat) :
    (ofBranch b).toBranch xid transactionId = .ok { b with xid, transactionId } := by
  simp [toBranch, ofBranch, BranchType.ofCode?_code, BranchStatus.ofCode?_code]
  rfl

end BranchRecord

namespace SessionRecord

/-- A session comes back from its record as stored. -/
theorem toSession_ofSession (s : GlobalSession) : (ofSession s).toSession = .ok s.asStored := by
  have hbranches : ((s.branches.map BranchRecord.ofBranch).mapM
      fun b => b.toBranch s.xid s.transactionId) =
      .ok (s.branches.map fun b => { b with xid := s.xid, transactionId := s.transactionId }) := by
    rw [List.mapM_map]
    exact (congrArg (List.mapM · s.branches)
      (funext fun b => BranchRecord.toBranch_ofBranch b s.xid s.transactionId)).trans List.mapM_pure
  simp only [toSession, ofSession, GlobalStatus.ofCode?_code, hbranches]
  rfl

end SessionRecord

/-! ## Records through their bytes -/

namespace BranchRecord

/-- A branch record is read back from its bytes, down to the bytes that follow it. -/
theorem readsTo_encode {b : BranchRecord} (hb : b.Fits) (after : List UInt8)
    (hsize : (b.encode ++ after).length < 2 ^ 64) :
    Wire.ReadsTo readField after.length {} (b.encode ++ after) (.ok (b, after)) := by
  obtain ⟨bid, rg, res, client, ty, st, lk, data, bt⟩ := b
  obtain ⟨hbid, ⟨htylo, htyhi⟩, ⟨hstlo, hsthi⟩, hbt⟩ := hb
  simp only [encode, List.append_assoc] at hsize ⊢
  -- The fields are read in the order they were written, each into the record read so far.
  refine .uint64Field ⟨bid, "", "", "", 0, 0, "", "", 0⟩ (by decide) (by decide) (by simp +arith) ?_
    (fun hz => by simp [hz]) (fun hmore => ?_) hsize
  · simp only [readField, Wire.within, Wire.readUInt64_writeVarint hbid]; rfl
  refine .stringField ⟨bid, rg, "", "", 0, 0, "", "", 0⟩ (by decide) (by decide) (by simp +arith)
    (fun hL => ?_) (fun he => by simp [String.isEmpty_iff.mp he]) (fun hmore => ?_) hmore
  · simp only [readField, Wire.within, Wire.readString_delimited hL]; rfl
  refine .stringField ⟨bid, rg, res, "", 0, 0, "", "", 0⟩ (by decide) (by decide) (by simp +arith)
    (fun hL => ?_) (fun he => by simp [String.isEmpty_iff.mp he]) (fun hmore => ?_) hmore
  · simp only [readField, Wire.within, Wire.readString_delimited hL]; rfl
  refine .stringField ⟨bid, rg, res, client, 0, 0, "", "", 0⟩ (by decide) (by decide)
    (by simp +arith) (fun hL => ?_) (fun he => by simp [String.isEmpty_iff.mp he]) (fun hmore => ?_)
    hmore
  · simp only [readField, Wire.within, Wire.readString_delimited hL]; rfl
  refine .int32Field ⟨bid, rg, res, client, ty, 0, "", "", 0⟩ (by decide) (by decide)
    (by simp +arith) ?_ (fun hz => by simp [hz]) (fun hmore => ?_) hmore
  · simp only [readField, Wire.within, Wire.readInt32_wordOfInt htylo htyhi]; rfl
  refine .int32Field ⟨bid, rg, res, client, ty, st, "", "", 0⟩ (by decide) (by decide)
    (by simp +arith) ?_ (fun hz => by simp [hz]) (fun hmore => ?_) hmore
  · simp only [readField, Wire.within, Wire.readInt32_wordOfInt hstlo hsthi]; rfl
  refine .stringField ⟨bid, rg, res, client, ty, st, lk, "", 0⟩ (by decide) (by decide)
    (by simp +arith) (fun hL => ?_) (fun he => by simp [String.isEmpty_iff.mp he]) (fun hmore => ?_)
    hmore
  · simp only [readField, Wire.within, Wire.readString_delimited hL]; rfl
  refine .stringField ⟨bid, rg, res, client, ty, st, lk, data, 0⟩ (by decide) (by decide)
    (by simp +arith) (fun hL => ?_) (fun he => by simp [String.isEmpty_iff.mp he]) (fun hmore => ?_)
    hmore
  · simp only [readField, Wire.within, Wire.readString_delimited hL]; rfl
  refine .uint64Field ⟨bid, rg, res, client, ty, st, lk, data, bt⟩ (by decide) (by decide)
    (by simp +arith) ?_ (fun hz => by simp [hz]) (fun _ => .stop (Nat.le_refl _)) hmore
  · simp only [readField, Wire.within, Wire.readUInt64_writeVarint hbt]; rfl

end BranchRecord

namespace SessionRecord

/-- The branches of a record are read in order, each appended to those read before. -/
theorem readsTo_branches (m : SessionRecord) {bs : List BranchRecord} (hbs : ∀ b ∈ bs, b.Fits)
    (after : List UInt8)
    (hsize : ((bs.flatMap fun b => Wire.delimited 11 b.encode) ++ after).length < 2 ^ 64) :
    Wire.ReadsTo readField after.length m
      ((bs.flatMap fun b => Wire.delimited 11 b.encode) ++ after)
      (.ok ({ m with branches := m.branches ++ bs }, after)) := by
  induction bs generalizing m with
  | nil => simpa using Wire.ReadsTo.stop (Nat.le_refl _)
  | cons b bs ih =>
    rw [List.flatMap_cons, List.append_assoc] at hsize ⊢
    -- The branch is a nested message, read whole by the branch reader.
    have hb : (b.encode ++ ((bs.flatMap fun b => Wire.delimited 11 b.encode) ++ after)).length <
        2 ^ 64 := by
      simp only [Wire.delimited, List.length_append] at hsize ⊢
      omega
    refine .delimited { m with branches := m.branches ++ [b] } (by decide) (by decide)
      (by simp +arith) (fun hL => ?_) (fun hmore => ?_) hsize
    · simp only [readField, Wire.within,
        Wire.readNested_delimited hL (BranchRecord.readsTo_encode (hbs b (by simp)) _ hb)]
      rfl
    · simpa using ih { m with branches := m.branches ++ [b] } (fun c hc => hbs c (by simp [hc]))
        hmore

/-- A session record is read back from its bytes. -/
theorem decode_encode {r : SessionRecord} (hr : r.Fits) : decode r.encode = .ok r := by
  obtain ⟨x, t, app, grp, name, st, tm, bt, gu, data, bs⟩ := r
  obtain ⟨ht, ⟨hstlo, hsthi⟩, htm, hbt, hgu, hbs, hsize⟩ := hr
  refine Wire.readMessage_of_readsTo ?_
  rw [← List.append_nil (encode _)] at hsize ⊢
  simp only [encode, List.append_assoc] at hsize ⊢
  -- The fields are read in the order they were written, each into the record read so far.
  refine .stringField ⟨x, 0, "", "", "", 0, 0, 0, 0, "", []⟩ (by decide) (by decide)
    (Nat.zero_le _) (fun hL => ?_) (fun he => by simp [String.isEmpty_iff.mp he])
    (fun hmore => ?_) hsize
  · simp only [readField, Wire.within, Wire.readString_delimited hL]; rfl
  refine .uint64Field ⟨x, t, "", "", "", 0, 0, 0, 0, "", []⟩ (by decide) (by decide)
    (Nat.zero_le _) ?_ (fun hz => by simp [hz]) (fun hmore => ?_) hmore
  · simp only [readField, Wire.within, Wire.readUInt64_writeVarint ht]; rfl
  refine .stringField ⟨x, t, app, "", "", 0, 0, 0, 0, "", []⟩ (by decide) (by decide)
    (Nat.zero_le _) (fun hL => ?_) (fun he => by simp [String.isEmpty_iff.mp he])
    (fun hmore => ?_) hmore
  · simp only [readField, Wire.within, Wire.readString_delimited hL]; rfl
  refine .stringField ⟨x, t, app, grp, "", 0, 0, 0, 0, "", []⟩ (by decide) (by decide)
    (Nat.zero_le _) (fun hL => ?_) (fun he => by simp [String.isEmpty_iff.mp he])
    (fun hmore => ?_) hmore
  · simp only [readField, Wire.within, Wire.readString_delimited hL]; rfl
  refine .stringField ⟨x, t, app, grp, name, 0, 0, 0, 0, "", []⟩ (by decide) (by decide)
    (Nat.zero_le _) (fun hL => ?_) (fun he => by simp [String.isEmpty_iff.mp he])
    (fun hmore => ?_) hmore
  · simp only [readField, Wire.within, Wire.readString_delimited hL]; rfl
  refine .int32Field ⟨x, t, app, grp, name, st, 0, 0, 0, "", []⟩ (by decide) (by decide)
    (Nat.zero_le _) ?_ (fun hz => by simp [hz]) (fun hmore => ?_) hmore
  · simp only [readField, Wire.within, Wire.readInt32_wordOfInt hstlo hsthi]; rfl
  refine .uint64Field ⟨x, t, app, grp, name, st, tm, 0, 0, "", []⟩ (by decide) (by decide)
    (Nat.zero_le _) ?_ (fun hz => by simp [hz]) (fun hmore => ?_) hmore
  · simp only [readField, Wire.within, Wire.readUInt64_writeVarint htm]; rfl
  refine .uint64Field ⟨x, t, app, grp, name, st, tm, bt, 0, "", []⟩ (by decide) (by decide)
    (Nat.zero_le _) ?_ (fun hz => by simp [hz]) (fun hmore => ?_) hmore
  · simp only [readField, Wire.within, Wire.readUInt64_writeVarint hbt]; rfl
  refine .uint64Field ⟨x, t, app, grp, name, st, tm, bt, gu, "", []⟩ (by decide) (by decide)
    (Nat.zero_le _) ?_ (fun hz => by simp [hz]) (fun hmore => ?_) hmore
  · simp only [readField, Wire.within, Wire.readUInt64_writeVarint hgu]; rfl
  refine .stringField ⟨x, t, app, grp, name, st, tm, bt, gu, data, []⟩ (by decide) (by decide)
    (Nat.zero_le _) (fun hL => ?_) (fun he => by simp [String.isEmpty_iff.mp he])
    (fun hmore => ?_) hmore
  · simp only [readField, Wire.within, Wire.readString_delimited hL]; rfl
  simpa using readsTo_branches ⟨x, t, app, grp, name, st, tm, bt, gu, data, []⟩ hbs [] hmore

/-- The wire format reads back every session record it is meant to write. -/
theorem codec_roundTrips : codec.RoundTrips := fun _ hr => decode_encode hr

/-- The bytes of a record that a codec reads back give the session the record gives. -/
theorem readSession_encode {codec : Wire.Codec SessionRecord} {r : SessionRecord}
    (h : codec.ReadsBack r) (what : String) : readSession codec what (codec.encode r) = r.toSession := by
  have hread : codec.decode (codec.encode r) = .ok r := h
  simp [readSession, hread]

end SessionRecord

/-! ## Sessions through their bytes -/

/-- A session whose numbers fit the 64-bit words of its record, and whose record takes fewer
than `2 ^ 64` bytes. -/
structure GlobalSession.Fits (s : GlobalSession) : Prop where
  transactionId : s.transactionId < 2 ^ 64
  beginTime : s.beginTime < 2 ^ 64
  gmtUpdated : s.gmtUpdated < 2 ^ 64
  branches : ∀ b ∈ s.branches, b.branchId < 2 ^ 64 ∧ b.beginTime < 2 ^ 64
  size : (SessionRecord.ofSession s).encode.length < 2 ^ 64

theorem GlobalStatus.code_bounds (s : GlobalStatus) : -2 ^ 31 ≤ s.code ∧ s.code < 2 ^ 31 := by
  cases s <;> decide

theorem BranchStatus.code_bounds (s : BranchStatus) : -2 ^ 31 ≤ s.code ∧ s.code < 2 ^ 31 := by
  cases s <;> decide

theorem BranchType.code_bounds (t : BranchType) : -2 ^ 31 ≤ t.code ∧ t.code < 2 ^ 31 := by
  cases t <;> decide

/-- The record of a session that fits has numbers that fit: codes are small, and the timeout
is saturated. -/
theorem SessionRecord.fits_ofSession {s : GlobalSession} (hs : s.Fits) :
    (SessionRecord.ofSession s).Fits where
  transactionId := hs.transactionId
  status := s.status.code_bounds
  timeoutMillis := Nat.lt_of_le_of_lt (millisOf_le _) (by decide)
  beginTime := hs.beginTime
  gmtUpdated := hs.gmtUpdated
  branches := by
    simp only [SessionRecord.ofSession, List.mem_map]
    rintro _ ⟨b, hb, rfl⟩
    exact ⟨(hs.branches b hb).1, b.branchType.code_bounds, b.status.code_bounds,
      (hs.branches b hb).2⟩
  size := hs.size

/-- A session read back from its record is the session as stored, which is the session itself
exactly when its timeout is a whole number of milliseconds within range and its branches carry
its xid and transaction id.  Through the bytes of a codec that reads back what it writes, the
session read is the same. -/
theorem GlobalSession.record_roundTrip (codec : Wire.Codec SessionRecord)
    (hcodec : codec.RoundTrips) (s : GlobalSession) :
    (SessionRecord.ofSession s).toSession = .ok s.asStored ∧
    ((SessionRecord.ofSession s).toSession = .ok s ↔
      (∃ ms ≤ Millis.max, s.timeout = Duration.ofMillis ms) ∧
        ∀ b ∈ s.branches, b.xid = s.xid ∧ b.transactionId = s.transactionId) ∧
    (codec.fits (SessionRecord.ofSession s) → ∀ what,
      SessionRecord.readSession codec what (codec.encode (SessionRecord.ofSession s)) =
        .ok s.asStored) := by
  refine ⟨SessionRecord.toSession_ofSession s, ?_, fun hfits what => ?_⟩
  · rw [SessionRecord.toSession_ofSession, Except.ok.injEq]
    exact s.asStored_eq_self_iff
  · rw [SessionRecord.readSession_encode (hcodec _ hfits), SessionRecord.toSession_ofSession]

/-- A committing session with one branch, whose timeout is whole milliseconds, comes back
unchanged through the bytes of its Protobuf record. -/
theorem GlobalSession.record_roundTrip_committing :
    SessionRecord.codec.fits (SessionRecord.ofSession
      { (GlobalSession.new "tc:7" 7 "app" "group" "tx1" 1500 100).addBranch
        ⟨"tc:7", 7, 3, "", "db", "cli", .at, .phaseOneDone, "t:1", "", 100⟩ with
      status := .commitRetrying }) ∧
    (SessionRecord.ofSession { (GlobalSession.new "tc:7" 7 "app" "group" "tx1" 1500 100).addBranch
        ⟨"tc:7", 7, 3, "", "db", "cli", .at, .phaseOneDone, "t:1", "", 100⟩ with
      status := .commitRetrying }).toSession =
      .ok { (GlobalSession.new "tc:7" 7 "app" "group" "tx1" 1500 100).addBranch
        ⟨"tc:7", 7, 3, "", "db", "cli", .at, .phaseOneDone, "t:1", "", 100⟩ with
      status := .commitRetrying } ∧
    SessionRecord.readSession SessionRecord.codec "session tc:7"
      (SessionRecord.codec.encode (SessionRecord.ofSession
        { (GlobalSession.new "tc:7" 7 "app" "group" "tx1" 1500 100).addBranch
          ⟨"tc:7", 7, 3, "", "db", "cli", .at, .phaseOneDone, "t:1", "", 100⟩ with
        status := .commitRetrying })) =
      .ok { (GlobalSession.new "tc:7" 7 "app" "group" "tx1" 1500 100).addBranch
        ⟨"tc:7", 7, 3, "", "db", "cli", .at, .phaseOneDone, "t:1", "", 100⟩ with
      status := .commitRetrying } := by
  have hfits : { (GlobalSession.new "tc:7" 7 "app" "group" "tx1" 1500 100).addBranch
      ⟨"tc:7", 7, 3, "", "db", "cli", .at, .phaseOneDone, "t:1", "", 100⟩ with
      status := .commitRetrying }.Fits := ⟨by decide, by decide, by decide, by decide, by decide⟩
  have h := GlobalSession.record_roundTrip SessionRecord.codec SessionRecord.codec_roundTrips
    { (GlobalSession.new "tc:7" 7 "app" "group" "tx1" 1500 100).addBranch
      ⟨"tc:7", 7, 3, "", "db", "cli", .at, .phaseOneDone, "t:1", "", 100⟩ with
      status := .commitRetrying }
  -- the session is its own stored form, so the bytes give it back unchanged
  have hsame := h.2.1.mpr ⟨⟨1500, by decide, rfl⟩, by decide⟩
  have hstored := hsame ▸ h.1
  rw [Except.ok.injEq] at hstored
  have hread := h.2.2 (SessionRecord.fits_ofSession hfits) "session tc:7"
  rw [hstored] at hread
  exact ⟨SessionRecord.fits_ofSession hfits, hsame, hread⟩

namespace LockHolder

/-- A holder is read back from the bytes of its record. -/
theorem decode_encode {h : LockHolder} (hh : h.Fits) : decode h.encode = .ok h := by
  obtain ⟨xid, txid, bid⟩ := h
  obtain ⟨htx, hbr, hsize⟩ := hh
  have hbytes : encode ⟨xid, txid, bid⟩ = Wire.stringField 1 xid ++
      (Wire.uint64Field 2 txid ++ (Wire.uint64Field 3 bid ++ [])) := by
    simp [encode]
  rw [hbytes] at hsize ⊢
  refine Wire.readMessage_of_readsTo ?_
  -- The fields are read in the order they were written, each into the holder read so far.
  refine .stringField ⟨xid, 0, 0⟩ (by decide) (by decide) (Nat.zero_le _)
    (fun hL => ?_) (fun he => by simp [String.isEmpty_iff.mp he]) (fun hmore => ?_) hsize
  · simp only [readField, Wire.within, Wire.readString_delimited hL]; rfl
  refine .uint64Field ⟨xid, txid, 0⟩ (by decide) (by decide) (Nat.zero_le _)
    ?_ (fun hz => by simp [hz]) (fun hmore => ?_) hmore
  · simp only [readField, Wire.within, Wire.readUInt64_writeVarint htx]; rfl
  refine .uint64Field ⟨xid, txid, bid⟩ (by decide) (by decide) (Nat.zero_le _)
    ?_ (fun hz => by simp [hz]) (fun _ => .stop (Nat.zero_le _)) hmore
  · simp only [readField, Wire.within, Wire.readUInt64_writeVarint hbr]; rfl

/-- The wire format reads back every holder it is meant to write. -/
theorem codec_roundTrips : codec.RoundTrips := fun _ hh => decode_encode hh

end LockHolder

end GlobalTxn
