import Mathlib
import GlobalTxn.Coordinator.Latch

/-! # Latches exclude per xid and count their users

Whatever the interleaving of the users of the latches of one node, the table of latches stays
in step with the users alive:

* every user of an xid waits on, holds or held the one mutex of that xid's entry, and entries
  of different xids have different mutexes, so two users share a mutex exactly when they
  share an xid;
* the mutexes held are the mutexes of the users holding, each held once, so at most one user
  of an xid holds its mutex, and a waiting user gets its mutex exactly when no user of its own
  xid holds;
* an xid has an entry exactly when it has users alive, and the entry counts them, so the
  table is empty exactly when no user is alive, whether the users got the mutex, gave up on a
  taken one or stopped waiting.

The table side is `Latches.Tracks`: the agreement of the table with the xid and mutex of each
user alive, kept by entering (`Latches.Tracks.enter`) and leaving (`Latches.Tracks.leave`).
The world side is `LatchWorld.Coherent`, kept by every step (`LatchWorld.Coherent.step`) and so
by every run.

Main statement: `LatchWorld.latches_exclusive_per_xid_and_counted`.
-/

namespace GlobalTxn

/-! ## Association lists -/

section Lookup

variable {α β : Type} [BEq α] [LawfulBEq α] [DecidableEq α]

/-- Looking up in a list whose entries at key `k` are changed, and no other. -/
theorem lookup_map_at {f : α × β → α × β} {k : α} (hfst : ∀ p, (f p).1 = p.1)
    (hother : ∀ p, p.1 ≠ k → f p = p) (a : α) :
    ∀ l : List (α × β),
      (l.map f).lookup a = if a = k then (l.lookup a).map fun b => (f (k, b)).2 else l.lookup a
  | [] => by simp
  | (x, b) :: l => by
    have hfx : f (x, b) = (x, (f (x, b)).2) := Prod.ext (hfst (x, b)) rfl
    rw [List.map_cons, hfx, List.lookup_cons, List.lookup_cons, lookup_map_at hfst hother a l]
    by_cases hax : a = x
    · subst hax
      by_cases hak : a = k
      · subst hak
        simp
      · have hkeep : f (a, b) = (a, b) := hother (a, b) hak
        rw [hkeep] at hfx
        simp [hak, hkeep]
    · have hne : (a == x) = false := by simpa using hax
      simp only [hne]

/-- Looking up in a list with the entries at key `k` left out. -/
theorem lookup_filter_ne (k a : α) :
    ∀ l : List (α × β), (l.filter (·.1 != k)).lookup a = if a = k then none else l.lookup a
  | [] => by simp
  | (x, b) :: l => by
    rw [List.filter_cons, List.lookup_cons]
    by_cases hxk : x = k
    · subst hxk
      rw [if_neg (by simp), lookup_filter_ne x a l]
      by_cases hax : a = x
      · simp [hax]
      · have hne : (a == x) = false := by simpa using hax
        simp only [hax, hne, if_false]
    · have hkeep : (x != k) = true := by simpa using hxk
      rw [if_pos hkeep, List.lookup_cons, lookup_filter_ne k a l]
      by_cases hax : a = x
      · subst hax
        simp [hxk]
      · have hne : (a == x) = false := by simpa using hax
        simp only [hne]

end Lookup

/-- A list holding two different values has at least two elements. -/
theorem two_le_length_of_mem_of_mem {α : Type} {l : List α} {a b : α} (ha : a ∈ l) (hb : b ∈ l)
    (hab : a ≠ b) : 2 ≤ l.length := by
  obtain ⟨s, t, rfl⟩ := List.append_of_mem ha
  have hb' : b ∈ s ++ t := by
    rcases List.mem_append.1 hb with hs | ht
    · exact List.mem_append_left _ hs
    · rcases List.mem_cons.1 ht with rfl | ht
      · exact absurd rfl hab
      · exact List.mem_append_right _ ht
  have hpos : 0 < (s ++ t).length := List.length_pos_of_mem hb'
  simp only [List.length_append, List.length_cons] at hpos ⊢
  omega

/-! ## The table of latches -/

namespace Latches

/-- The users that the entry of `xid` counts, none without an entry. -/
def usersOf (l : Latches) (xid : String) : Nat := ((l.entry? xid).map (·.users)).getD 0

/-- The mutex a user entering `xid` gets: that of its entry, or a fresh one. -/
theorem enter_fst (l : Latches) (xid : String) :
    (l.enter xid).1 = ((l.entry? xid).map (·.mutex)).getD l.fresh := by
  unfold enter
  split <;> simp_all

theorem fresh_enter (l : Latches) (xid : String) :
    (l.enter xid).2.fresh = if (l.entry? xid).isSome then l.fresh else l.fresh + 1 := by
  unfold enter
  split <;> simp_all

/-- Entering `xid` counts one user more on its entry, made with the mutex the user gets, and
leaves the other entries alone. -/
theorem entry?_enter (l : Latches) (xid x : String) :
    Latches.entry? (l.enter xid).2 x =
      if x = xid then some ⟨(l.enter xid).1, l.usersOf xid + 1⟩ else l.entry? x := by
  unfold enter usersOf
  split
  · rename_i e he
    simp only [Latches.entry?]
    rw [lookup_map_at (k := xid) (by rintro ⟨y, e'⟩; dsimp only; split <;> rfl)
      (by rintro ⟨y, e'⟩ hy; dsimp only at hy ⊢; rw [if_neg hy])]
    by_cases hx : x = xid
    · subst hx
      simp only [Latches.entry?] at he
      simp [he]
    · simp [hx]
  · rename_i he
    simp only [Latches.entry?, List.lookup_append]
    by_cases hx : x = xid
    · subst hx
      simp only [Latches.entry?] at he
      simp [he]
    · have hne : (x == xid) = false := by simpa using hx
      simp only [hx, if_false, List.lookup_cons, hne, List.lookup_nil, Option.or_none]

/-- Leaving `xid` counts one user less on its entry, which goes with its last user, and leaves
the other entries alone. -/
theorem entry?_leave (l : Latches) (xid x : String) :
    Latches.entry? (l.leave xid) x =
      if x = xid then (l.entry? xid).bind fun e =>
        if e.users ≤ 1 then none else some ⟨e.mutex, e.users - 1⟩
      else l.entry? x := by
  unfold leave
  split
  · rename_i e he
    split
    · rename_i hle
      simp only [Latches.entry?] at he ⊢
      rw [lookup_filter_ne]
      by_cases hx : x = xid
      · simp [hx, he, hle]
      · simp [hx]
    · rename_i hgt
      simp only [Latches.entry?]
      rw [lookup_map_at (k := xid) (by rintro ⟨y, e'⟩; dsimp only; split <;> rfl)
        (by rintro ⟨y, e'⟩ hy; dsimp only at hy ⊢; rw [if_neg hy])]
      by_cases hx : x = xid
      · subst hx
        simp only [Latches.entry?] at he
        simp [he, hgt]
      · simp [hx]
  · rename_i he
    by_cases hx : x = xid
    · subst hx
      simp [he]
    · simp [hx]

theorem fresh_leave (l : Latches) (xid : String) : (l.leave xid).fresh = l.fresh := by
  unfold leave
  split
  · split <;> rfl
  · rfl

/-- An entry left after leaving is an entry from before, with its mutex. -/
theorem entry?_of_entry?_leave {l : Latches} {xid x : String} {e : LatchEntry}
    (h : Latches.entry? (l.leave xid) x = some e) : ∃ e₀, l.entry? x = some e₀ ∧ e₀.mutex = e.mutex := by
  rw [entry?_leave] at h
  split at h
  · rename_i hx
    subst hx
    obtain ⟨e₀, he₀, hsome⟩ := Option.bind_eq_some_iff.1 h
    refine ⟨e₀, he₀, ?_⟩
    split at hsome
    · cases hsome
    · cases hsome
      rfl
  · exact ⟨e, h, rfl⟩

theorem entry?_eq_none_iff_entries {l : Latches} : (∀ x, l.entry? x = none) ↔ l.entries = [] := by
  constructor
  · intro h
    cases hl : l.entries with
    | nil => rfl
    | cons p ps =>
      have hp := h p.1
      simp [Latches.entry?, hl] at hp
  · intro h x
    simp [Latches.entry?, h]

/-- The table agrees with the users alive, each given as its xid and the mutex it got: each
entry counts the users of its xid, and an xid without users has no entry; every user's mutex is
that of its xid's entry; and entries of different xids have different mutexes, all older than
the next fresh one. -/
structure Tracks (l : Latches) (users : List (String × Nat)) : Prop where
  usersOf_eq : ∀ xid, l.usersOf xid = users.countP (·.1 == xid)
  users_pos : ∀ xid e, l.entry? xid = some e → 0 < e.users
  mutex_eq : ∀ p ∈ users, ∀ e, l.entry? p.1 = some e → p.2 = e.mutex
  mutex_lt : ∀ xid e, l.entry? xid = some e → e.mutex < l.fresh
  mutex_inj : ∀ x y e f, l.entry? x = some e → l.entry? y = some f → e.mutex = f.mutex → x = y

namespace Tracks

variable {l : Latches} {users : List (String × Nat)}

/-- An xid with a user alive has an entry. -/
theorem entry?_isSome (h : l.Tracks users) {p : String × Nat} (hp : p ∈ users) :
    ∃ e, l.entry? p.1 = some e := by
  have hpos : 0 < users.countP (·.1 == p.1) := List.countP_pos_iff.2 ⟨p, hp, by simp⟩
  rw [← h.usersOf_eq] at hpos
  cases he : l.entry? p.1 with
  | none => simp [usersOf, he] at hpos
  | some e => exact ⟨e, rfl⟩

/-- An xid has an entry exactly when it has a user alive. -/
theorem entry?_isSome_iff (h : l.Tracks users) (xid : String) :
    (l.entry? xid).isSome ↔ ∃ p ∈ users, p.1 = xid := by
  constructor
  · intro hs
    obtain ⟨e, he⟩ := Option.isSome_iff_exists.1 hs
    have hpos : 0 < users.countP (·.1 == xid) := by
      rw [← h.usersOf_eq]
      simpa [usersOf, he] using h.users_pos xid e he
    obtain ⟨p, hp, hpx⟩ := List.countP_pos_iff.1 hpos
    exact ⟨p, hp, by simpa using hpx⟩
  · rintro ⟨p, hp, rfl⟩
    obtain ⟨e, he⟩ := h.entry?_isSome hp
    simp [he]

/-- Entering keeps the table in step, with the new user given its xid and the mutex it got. -/
theorem enter (h : l.Tracks users) (xid : String) :
    (l.enter xid).2.Tracks (users ++ [(xid, (l.enter xid).1)]) := by
  have hfresh := fresh_enter l xid
  -- the mutex the new user gets: its xid's, if the xid is in use, else a fresh one
  have hold : ∀ e, l.entry? xid = some e → (l.enter xid).1 = e.mutex := by
    intro e he
    simp [enter_fst, he]
  have hnew : l.entry? xid = none → (l.enter xid).1 = l.fresh := by
    intro he
    simp [enter_fst, he]
  constructor
  · intro x
    rw [List.countP_append, ← h.usersOf_eq]
    by_cases hx : x = xid
    · subst hx
      simp [usersOf, entry?_enter]
    · have hne : (xid == x) = false := by simpa using Ne.symm hx
      simp [usersOf, entry?_enter, hx, hne]
  · intro x e he
    rw [entry?_enter] at he
    split at he
    · cases he
      exact Nat.succ_pos _
    · exact h.users_pos x e he
  · intro p hp e he
    rw [entry?_enter] at he
    rcases List.mem_append.1 hp with hp | hp
    · split at he
      · rename_i hx
        cases he
        obtain ⟨e₀, he₀⟩ := h.entry?_isSome hp
        rw [hx] at he₀
        rw [hold e₀ he₀, h.mutex_eq p hp e₀ (hx ▸ he₀)]
      · exact h.mutex_eq p hp e he
    · rw [List.mem_singleton] at hp
      subst hp
      rw [if_pos rfl] at he
      cases he
      rfl
  · intro x e he
    rw [entry?_enter] at he
    split at he
    · cases he
      cases hx : l.entry? xid with
      | none => simp [hnew hx, hfresh, hx]
      | some e₀ => simp [hold e₀ hx, hfresh, hx, h.mutex_lt xid e₀ hx]
    · have := h.mutex_lt x e he
      split at hfresh <;> omega
  · intro x y e f he hf hef
    rw [entry?_enter] at he hf
    -- an entry of `xid` made fresh has a mutex no other entry has
    have hapart : ∀ z g, z ≠ xid → l.entry? z = some g → (l.enter xid).1 ≠ g.mutex := by
      intro z g hz hg heq
      cases hx : l.entry? xid with
      | none => exact Nat.lt_irrefl _ (hnew hx ▸ heq ▸ h.mutex_lt z g hg)
      | some e₀ => exact hz (h.mutex_inj z xid g e₀ hg hx (heq.symm.trans (hold e₀ hx)))
    split at he <;> split at hf
    · rename_i hx hy
      rw [hx, hy]
    · rename_i hx hy
      cases he
      exact absurd hef (hapart y f hy hf)
    · rename_i hx hy
      cases hf
      exact absurd hef.symm (hapart x e hx he)
    · exact h.mutex_inj x y e f he hf hef

/-- Leaving keeps the table in step, with the user that leaves taken out. -/
theorem leave {pre post : List (String × Nat)} {xid : String} {m : Nat}
    (h : l.Tracks (pre ++ (xid, m) :: post)) : (l.leave xid).Tracks (pre ++ post) := by
  obtain ⟨e, he⟩ := h.entry?_isSome (p := (xid, m)) (List.mem_append_right _ List.mem_cons_self)
  have hcount : ∀ x, (pre ++ (xid, m) :: post).countP (·.1 == x) =
      (pre ++ post).countP (·.1 == x) + if xid = x then 1 else 0 := by
    intro x
    simp only [List.countP_append, List.countP_cons, beq_iff_eq]
    omega
  have hsub : pre ++ post ⊆ pre ++ (xid, m) :: post :=
    ((List.sublist_cons_self _ post).append_left pre).subset
  constructor
  · intro x
    have hx := h.usersOf_eq x
    rw [hcount x] at hx
    by_cases hxe : x = xid
    · subst hxe
      have hpos := h.users_pos x e he
      simp only [usersOf, he, Option.map_some, Option.getD_some, if_pos] at hx
      rw [usersOf, entry?_leave, if_pos rfl, he, Option.bind_some]
      by_cases hle : e.users ≤ 1
      · rw [if_pos hle]
        simp only [Option.map_none, Option.getD_none]
        omega
      · rw [if_neg hle]
        simp only [Option.map_some, Option.getD_some]
        omega
    · simp only [usersOf, entry?_leave, if_neg hxe]
      simp only [usersOf] at hx
      rw [hx, if_neg (Ne.symm hxe)]
      rfl
  · intro x e' he'
    rw [entry?_leave] at he'
    split at he'
    · obtain ⟨e₀, he₀, hsome⟩ := Option.bind_eq_some_iff.1 he'
      split at hsome
      · cases hsome
      · rename_i hgt
        cases hsome
        dsimp only
        omega
    · exact h.users_pos x e' he'
  · intro p hp e' he'
    obtain ⟨e₀, he₀, hmut⟩ := entry?_of_entry?_leave he'
    rw [← hmut]
    exact h.mutex_eq p (hsub hp) e₀ he₀
  · intro x e' he'
    obtain ⟨e₀, he₀, hmut⟩ := entry?_of_entry?_leave he'
    rw [fresh_leave, ← hmut]
    exact h.mutex_lt x e₀ he₀
  · intro x y e' f' he' hf' hef
    obtain ⟨e₀, he₀, hme⟩ := entry?_of_entry?_leave he'
    obtain ⟨f₀, hf₀, hmf⟩ := entry?_of_entry?_leave hf'
    exact h.mutex_inj x y e₀ f₀ he₀ hf₀ (by rw [hme, hmf, hef])

end Tracks

end Latches

/-! ## Users and the mutexes they hold -/

namespace LatchWorld

/-- The xid and the mutex of each user alive. -/
def claims (w : LatchWorld) : List (String × Nat) := w.users.map fun p => (p.2.xid, p.2.mutex)

/-- How many users hold mutex `m`. -/
def holderCount (w : LatchWorld) (m : Nat) : Nat :=
  w.users.countP fun p => p.2.phase == .holding && p.2.mutex == m

/-- The world is in step: users have distinct ids below the next one, the table tracks the
users alive, and the mutexes held are those of the users holding, each held once. -/
structure Coherent (w : LatchWorld) : Prop where
  ids_nodup : (w.users.map (·.1)).Nodup
  ids_lt : ∀ p ∈ w.users, p.1 < w.nextUser
  tracks : w.latches.Tracks w.claims
  held_count : ∀ m, w.held.count m = w.holderCount m
  held_nodup : w.held.Nodup

theorem coherent_empty : ({} : LatchWorld).Coherent where
  ids_nodup := List.nodup_nil
  ids_lt := fun _ h => by cases h
  tracks :=
    { usersOf_eq := fun _ => rfl
      users_pos := fun _ _ h => by simp [Latches.entry?] at h
      mutex_eq := fun _ h => by cases h
      mutex_lt := fun _ _ h => by simp [Latches.entry?] at h
      mutex_inj := fun _ _ _ _ h => by simp [Latches.entry?] at h }
  held_count := fun _ => rfl
  held_nodup := List.nodup_nil

/-- After user `id` moves to `phase`, it is found in that phase and every other user as
before. -/
theorem user?_setPhase (w : LatchWorld) (id i : Nat) (phase : LatchPhase) :
    (w.setPhase id phase).lookup i =
      if i = id then (w.user? i).map ({ · with phase }) else w.user? i := by
  unfold setPhase user?
  rw [lookup_map_at (k := id) (by rintro ⟨j, u⟩; dsimp only; split <;> rfl)
    (by rintro ⟨j, u⟩ hj; dsimp only at hj ⊢; rw [if_neg hj])]
  by_cases hi : i = id
  · subst hi
    simp
  · simp [hi]

theorem ids_setPhase (w : LatchWorld) (id : Nat) (phase : LatchPhase) :
    (w.setPhase id phase).map (·.1) = w.users.map (·.1) := by
  unfold setPhase
  rw [List.map_map]
  exact List.map_congr_left fun p _ => by dsimp only [Function.comp]; split <;> rfl

theorem claims_setPhase (w : LatchWorld) (id : Nat) (phase : LatchPhase) :
    (w.setPhase id phase).map (fun p => (p.2.xid, p.2.mutex)) = w.claims := by
  unfold setPhase claims
  rw [List.map_map]
  exact List.map_congr_left fun p _ => by dsimp only [Function.comp]; split <;> rfl

/-- A user alive sits once in the list of users, between users of other ids. -/
theorem users_split {w : LatchWorld} {id : Nat} {u : LatchUser} (hn : (w.users.map (·.1)).Nodup)
    (hu : w.user? id = some u) :
    ∃ pre post, w.users = pre ++ (id, u) :: post ∧ (∀ p ∈ pre, p.1 ≠ id) ∧ ∀ p ∈ post, p.1 ≠ id := by
  obtain ⟨pre, post, hsplit, hpre⟩ := List.lookup_eq_some_iff.1 hu
  refine ⟨pre, post, hsplit, fun p hp => ?_, fun p hp hid => ?_⟩
  · have := hpre p hp
    simp only [bne_iff_ne, ne_eq] at this
    exact Ne.symm this
  · rw [hsplit, List.map_append, List.map_cons, List.nodup_append] at hn
    exact (List.nodup_cons.1 hn.2.1).1 (List.mem_map.2 ⟨p, hp, hid⟩)

/-- With distinct ids, every user in the list is the user its id finds. -/
theorem user?_of_mem {w : LatchWorld} {i : Nat} {u : LatchUser} (hn : (w.users.map (·.1)).Nodup)
    (hm : (i, u) ∈ w.users) : w.user? i = some u := by
  obtain ⟨pre, post, hsplit⟩ := List.append_of_mem hm
  refine List.lookup_eq_some_iff.2 ⟨pre, post, hsplit, fun p hp => ?_⟩
  rw [hsplit, List.map_append, List.map_cons, List.nodup_append] at hn
  have hne := hn.2.2 p.1 (List.mem_map.2 ⟨p, hp, rfl⟩) i List.mem_cons_self
  simpa using Ne.symm hne

theorem mem_of_user? {w : LatchWorld} {i : Nat} {u : LatchUser} (hu : w.user? i = some u) :
    (i, u) ∈ w.users := by
  obtain ⟨pre, post, hsplit, -⟩ := List.lookup_eq_some_iff.1 hu
  rw [hsplit]
  exact List.mem_append_right _ List.mem_cons_self

/-- The mutexes held after a user moves to `phase`: one more of its mutex if it starts to hold,
one fewer if it stops. -/
theorem holderCount_setPhase {w : LatchWorld} {id : Nat} {u : LatchUser}
    (hn : (w.users.map (·.1)).Nodup) (hu : w.user? id = some u) (phase : LatchPhase) (m : Nat) :
    ({ w with users := w.setPhase id phase } : LatchWorld).holderCount m +
        (if u.phase = .holding ∧ u.mutex = m then 1 else 0) =
      w.holderCount m + if phase = .holding ∧ u.mutex = m then 1 else 0 := by
  obtain ⟨pre, post, hsplit, hpre, hpost⟩ := users_split hn hu
  -- only the user `id` moves; the users around it keep their phases
  have hmove : w.setPhase id phase = pre ++ (id, { u with phase }) :: post := by
    unfold setPhase
    rw [hsplit, List.map_append, List.map_cons]
    congr 1
    · refine (List.map_congr_left (g := fun p => p) fun p hp => ?_).trans (List.map_id' pre)
      obtain ⟨i, v⟩ := p
      exact if_neg (hpre _ hp)
    · congr 1
      · exact if_pos rfl
      · refine (List.map_congr_left (g := fun p => p) fun p hp => ?_).trans (List.map_id' post)
        obtain ⟨i, v⟩ := p
        exact if_neg (hpost _ hp)
  unfold holderCount
  dsimp only
  rw [hmove, hsplit]
  simp only [List.countP_append, List.countP_cons, Bool.and_eq_true, beq_iff_eq]
  split_ifs <;> omega

/-- The world after a user moves to `phase`, with the mutexes held `held'`, is in step when
`held'` counts the holders. -/
theorem Coherent.setPhase {w : LatchWorld} (h : w.Coherent) {id : Nat} {u : LatchUser}
    (hu : w.user? id = some u) (phase : LatchPhase) {held' : List Nat}
    (hcount : ∀ m, held'.count m + (if u.phase = .holding ∧ u.mutex = m then 1 else 0) =
      w.held.count m + if phase = .holding ∧ u.mutex = m then 1 else 0)
    (hnodup : held'.Nodup) :
    ({ w with users := w.setPhase id phase, held := held' } : LatchWorld).Coherent where
  ids_nodup := by
    show ((w.setPhase id phase).map (·.1)).Nodup
    rw [ids_setPhase]
    exact h.ids_nodup
  ids_lt := by
    intro p hp
    have hid : p.1 ∈ (w.setPhase id phase).map (·.1) := List.mem_map_of_mem hp
    rw [ids_setPhase] at hid
    obtain ⟨q, hq, hqp⟩ := List.mem_map.1 hid
    rw [← hqp]
    exact h.ids_lt q hq
  tracks := by
    show w.latches.Tracks ((w.setPhase id phase).map fun p => (p.2.xid, p.2.mutex))
    rw [claims_setPhase]
    exact h.tracks
  held_count := by
    intro m
    have hmove : ({ w with users := w.setPhase id phase, held := held' } : LatchWorld).holderCount m +
        (if u.phase = .holding ∧ u.mutex = m then 1 else 0) =
        w.holderCount m + if phase = .holding ∧ u.mutex = m then 1 else 0 :=
      holderCount_setPhase h.ids_nodup hu phase m
    have hold := h.held_count m
    have hnew := hcount m
    dsimp only
    omega
  held_nodup := hnodup

/-! ## One step, and every run -/

/-- A new user enters its xid and waits. -/
theorem step_enter (w : LatchWorld) (xid : String) :
    w.step (.enter xid) =
      { latches := (w.latches.enter xid).2
        users := w.users ++ [(w.nextUser, ⟨xid, (w.latches.enter xid).1, .waiting⟩)]
        held := w.held
        nextUser := w.nextUser + 1 } := rfl

theorem step_acquire {w : LatchWorld} {id : Nat} {u : LatchUser} (hu : w.user? id = some u) :
    w.step (.acquire id) =
      if u.phase = .waiting ∧ u.mutex ∉ w.held then
        { w with users := w.setPhase id .holding, held := u.mutex :: w.held }
      else w := by
  simp only [step, hu]

theorem Coherent.enter {w : LatchWorld} (h : w.Coherent) (xid : String) :
    (w.step (.enter xid)).Coherent := by
  rw [step_enter]
  constructor
  · -- the new id is above every id in use
    rw [List.map_append, List.nodup_append]
    refine ⟨h.ids_nodup, List.nodup_singleton _, fun a ha b hb hab => ?_⟩
    obtain ⟨p, hp, rfl⟩ := List.mem_map.1 ha
    simp only [List.map_cons, List.map_nil, List.mem_singleton] at hb
    exact Nat.lt_irrefl _ (hb ▸ hab ▸ h.ids_lt p hp)
  · intro p hp
    rcases List.mem_append.1 hp with hp | hp
    · exact Nat.lt_succ_of_lt (h.ids_lt p hp)
    · rw [List.mem_singleton] at hp
      subst hp
      exact Nat.lt_succ_self _
  · rw [claims, List.map_append]
    exact h.tracks.enter xid
  · intro m
    rw [holderCount, List.countP_append, h.held_count m]
    simp [holderCount]
  · exact h.held_nodup

/-- A waiting user that takes its mutex, which no one holds, adds it to the mutexes held. -/
theorem Coherent.take {w : LatchWorld} (h : w.Coherent) {id : Nat} {u : LatchUser}
    (hu : w.user? id = some u) (hwait : u.phase = .waiting) (hfree : u.mutex ∉ w.held) :
    ({ w with users := w.setPhase id .holding, held := u.mutex :: w.held } : LatchWorld).Coherent := by
  refine h.setPhase hu .holding (fun m => ?_) (List.nodup_cons.2 ⟨hfree, h.held_nodup⟩)
  rw [hwait, List.count_cons]
  simp only [beq_iff_eq, reduceCtorEq, false_and, if_false, true_and]
  omega

/-- A waiting user that stops waiting holds nothing to let go of. -/
theorem Coherent.stopWaiting {w : LatchWorld} (h : w.Coherent) {id : Nat} {u : LatchUser}
    (hu : w.user? id = some u) (hwait : u.phase = .waiting) :
    ({ w with users := w.setPhase id .leaving } : LatchWorld).Coherent :=
  h.setPhase hu .leaving (fun m => by simp [hwait]) h.held_nodup

/-- A waiting user takes its mutex if no one holds it. -/
theorem Coherent.acquire {w : LatchWorld} (h : w.Coherent) (id : Nat) :
    (w.step (.acquire id)).Coherent := by
  cases hu : w.user? id with
  | none => simpa [step, hu] using h
  | some u =>
    rw [step_acquire hu]
    split
    · rename_i hfree
      exact h.take hu hfree.1 hfree.2
    · exact h

/-- A waiting user that tries its mutex takes it if no one holds it, and gives up otherwise. -/
theorem Coherent.tryAcquire {w : LatchWorld} (h : w.Coherent) (id : Nat) :
    (w.step (.tryAcquire id)).Coherent := by
  cases hu : w.user? id with
  | none => simpa [step, hu] using h
  | some u =>
    simp only [step, hu]
    split
    · rename_i hwait
      split
      · rename_i hfree
        exact h.take hu hwait hfree
      · exact h.stopWaiting hu hwait
    · exact h

/-- A user that is done, or stops waiting, lets go of its mutex if it holds it. -/
theorem Coherent.drop {w : LatchWorld} (h : w.Coherent) (id : Nat) :
    (w.step (.drop id)).Coherent := by
  cases hu : w.user? id with
  | none => simpa [step, hu] using h
  | some u =>
    simp only [step, hu]
    split
    · rename_i hhold
      -- the mutex is held once, by this user
      have hin : u.mutex ∈ w.held := by
        have hpos : 0 < w.holderCount u.mutex :=
          List.countP_pos_iff.2 ⟨(id, u), mem_of_user? hu, by simp [hhold]⟩
        rw [← h.held_count] at hpos
        exact List.count_pos_iff.1 hpos
      refine h.setPhase hu .leaving (fun m => ?_) (h.held_nodup.erase _)
      rw [hhold, List.count_erase]
      have hpos : 0 < w.held.count m ∨ u.mutex ≠ m := by
        by_cases hm : u.mutex = m
        · exact Or.inl (List.count_pos_iff.2 (hm ▸ hin))
        · exact Or.inr hm
      simp only [beq_iff_eq, reduceCtorEq, false_and, if_false, true_and]
      split <;> omega
    · rename_i hwait
      exact h.stopWaiting hu hwait
    · exact h

/-- A user that let go leaves its xid, and the table forgets the xid with its last user. -/
theorem Coherent.leave {w : LatchWorld} (h : w.Coherent) (id : Nat) :
    (w.step (.leave id)).Coherent := by
  cases hu : w.user? id with
  | none => simpa [step, hu] using h
  | some u =>
    simp only [step, hu]
    split
    · rename_i hleaving
      obtain ⟨pre, post, hsplit, hpre, hpost⟩ := users_split h.ids_nodup hu
      have hrest : w.users.filter (·.1 != id) = pre ++ post := by
        rw [hsplit, List.filter_append, List.filter_cons]
        simp only [bne_self_eq_false, Bool.false_eq_true, if_false]
        rw [List.filter_eq_self.2 fun p hp => by simpa using hpre p hp,
          List.filter_eq_self.2 fun p hp => by simpa using hpost p hp]
      have htracks := h.tracks
      rw [claims, hsplit, List.map_append, List.map_cons] at htracks
      refine ⟨?_, ?_, ?_, ?_, h.held_nodup⟩
      · show ((w.users.filter _).map (·.1)).Nodup
        exact h.ids_nodup.sublist (List.Sublist.map _ List.filter_sublist)
      · intro p hp
        exact h.ids_lt p (List.mem_of_mem_filter hp)
      · show (w.latches.leave u.xid).Tracks ((w.users.filter _).map fun p => (p.2.xid, p.2.mutex))
        rw [hrest, List.map_append]
        exact htracks.leave
      · intro m
        show w.held.count m = (w.users.filter _).countP _
        rw [hrest, h.held_count m, holderCount, hsplit]
        simp [List.countP_append, hleaving]
    · exact h

/-- The step lemma: every step keeps the world in step. -/
theorem Coherent.step {w : LatchWorld} (h : w.Coherent) : ∀ e, (w.step e).Coherent
  | .enter xid => h.enter xid
  | .acquire id => h.acquire id
  | .tryAcquire id => h.tryAcquire id
  | .drop id => h.drop id
  | .leave id => h.leave id

/-- The run lemma: every interleaving keeps the world in step.  By induction on the events,
one step at a time. -/
theorem Coherent.run {w : LatchWorld} (h : w.Coherent) : ∀ events, (w.run events).Coherent
  | [] => h
  | e :: es => (h.step e).run es

/-! ## What the agreement gives -/

section Consequences

variable {w : LatchWorld}

theorem mem_claims {i : Nat} {u : LatchUser} (hu : w.user? i = some u) :
    (u.xid, u.mutex) ∈ w.claims :=
  List.mem_map.2 ⟨(i, u), mem_of_user? hu, rfl⟩

/-- Two users alive share a mutex exactly when they share an xid. -/
theorem Coherent.xid_eq_iff_mutex_eq (h : w.Coherent) {i j : Nat} {u v : LatchUser}
    (hu : w.user? i = some u) (hv : w.user? j = some v) : u.xid = v.xid ↔ u.mutex = v.mutex := by
  obtain ⟨e, he⟩ := h.tracks.entry?_isSome (mem_claims hu)
  obtain ⟨f, hf⟩ := h.tracks.entry?_isSome (mem_claims hv)
  have hue : u.mutex = e.mutex := h.tracks.mutex_eq _ (mem_claims hu) e he
  have hvf : v.mutex = f.mutex := h.tracks.mutex_eq _ (mem_claims hv) f hf
  constructor
  · intro hx
    rw [hue, hvf]
    dsimp only at he hf
    rw [hx, hf] at he
    cases he
    rfl
  · intro hm
    exact h.tracks.mutex_inj _ _ e f he hf (by rw [← hue, ← hvf, hm])

/-- A mutex is held exactly when a user alive holds it. -/
theorem Coherent.mem_held_iff (h : w.Coherent) (m : Nat) :
    m ∈ w.held ↔ ∃ j v, w.user? j = some v ∧ v.phase = .holding ∧ v.mutex = m := by
  rw [← List.count_pos_iff, h.held_count, holderCount, List.countP_pos_iff]
  constructor
  · rintro ⟨⟨j, v⟩, hp, hhold⟩
    simp only [Bool.and_eq_true, beq_iff_eq] at hhold
    exact ⟨j, v, user?_of_mem h.ids_nodup hp, hhold⟩
  · rintro ⟨j, v, hv, hhold⟩
    exact ⟨(j, v), mem_of_user? hv, by simpa using hhold⟩

/-- At most one user of an xid holds its mutex. -/
theorem Coherent.holder_unique (h : w.Coherent) {i j : Nat} {u v : LatchUser}
    (hu : w.user? i = some u) (hv : w.user? j = some v) (hx : u.xid = v.xid)
    (hhu : u.phase = .holding) (hhv : v.phase = .holding) : i = j := by
  by_contra hij
  have hm : u.mutex = v.mutex := (h.xid_eq_iff_mutex_eq hu hv).1 hx
  -- both holders are counted on one mutex, which is held once
  have htwo : 2 ≤ w.holderCount u.mutex := by
    unfold holderCount
    rw [List.countP_eq_length_filter]
    refine two_le_length_of_mem_of_mem (a := (i, u)) (b := (j, v)) ?_ ?_ ?_
    · exact List.mem_filter.2 ⟨mem_of_user? hu, by simp [hhu]⟩
    · exact List.mem_filter.2 ⟨mem_of_user? hv, by simp [hhv, hm]⟩
    · intro hp
      exact hij (congrArg Prod.fst hp)
  have hone := List.nodup_iff_count_le_one.1 h.held_nodup u.mutex
  rw [h.held_count] at hone
  omega

/-- A waiting user takes its mutex exactly when no user of its own xid holds; users of other
xids never keep it out. -/
theorem Coherent.acquire_takes_iff (h : w.Coherent) {i : Nat} {u : LatchUser}
    (hu : w.user? i = some u) (hwait : u.phase = .waiting) :
    ((w.step (.acquire i)).user? i).map (·.phase) = some .holding ↔
      ∀ j v, w.user? j = some v → v.xid = u.xid → v.phase ≠ .holding := by
  -- the mutex is free exactly when no holder shares it, that is, shares the xid
  have hfree : u.mutex ∉ w.held ↔ ∀ j v, w.user? j = some v → v.xid = u.xid → v.phase ≠ .holding := by
    rw [h.mem_held_iff]
    constructor
    · intro hn j v hv hx hhold
      exact hn ⟨j, v, hv, hhold, ((h.xid_eq_iff_mutex_eq hv hu).1 hx)⟩
    · rintro hall ⟨j, v, hv, hhold, hm⟩
      exact hall j v hv ((h.xid_eq_iff_mutex_eq hv hu).2 hm) hhold
  rw [← hfree, step_acquire hu]
  by_cases hn : u.mutex ∈ w.held
  · rw [if_neg fun hc => hc.2 hn]
    simp [hu, hwait, hn]
  · rw [if_pos ⟨hwait, hn⟩]
    show ((w.setPhase i .holding).lookup i).map (·.phase) = _ ↔ _
    rw [user?_setPhase, if_pos rfl, hu]
    simp [hn]

/-- The entry of an xid is there exactly when a user of it is alive. -/
theorem Coherent.entry?_isSome_iff (h : w.Coherent) (xid : String) :
    (w.latches.entry? xid).isSome ↔ ∃ i u, w.user? i = some u ∧ u.xid = xid := by
  rw [h.tracks.entry?_isSome_iff]
  constructor
  · rintro ⟨p, hp, rfl⟩
    obtain ⟨⟨i, u⟩, hm, rfl⟩ := List.mem_map.1 hp
    exact ⟨i, u, user?_of_mem h.ids_nodup hm, rfl⟩
  · rintro ⟨i, u, hu, rfl⟩
    exact ⟨_, mem_claims hu, rfl⟩

/-- An entry counts the users of its xid alive. -/
theorem Coherent.users_eq (h : w.Coherent) {xid : String} {e : LatchEntry}
    (he : w.latches.entry? xid = some e) : e.users = w.users.countP (·.2.xid == xid) := by
  have hc := h.tracks.usersOf_eq xid
  simp only [Latches.usersOf, he, Option.map_some, Option.getD_some, claims, List.countP_map] at hc
  exact hc

/-- The table is empty exactly when no user is alive. -/
theorem Coherent.size_eq_zero_iff (h : w.Coherent) : w.latches.size = 0 ↔ w.users = [] := by
  rw [Latches.size, List.length_eq_zero_iff, ← Latches.entry?_eq_none_iff_entries]
  constructor
  · intro hnone
    cases hus : w.users with
    | nil => rfl
    | cons p ps =>
      have hs := (h.entry?_isSome_iff p.2.xid).2
        ⟨p.1, p.2, user?_of_mem h.ids_nodup (hus ▸ List.mem_cons_self), rfl⟩
      rw [hnone] at hs
      cases hs
  · intro hnil x
    cases hx : w.latches.entry? x with
    | none => rfl
    | some e =>
      obtain ⟨i, u, hu, -⟩ := (h.entry?_isSome_iff x).1 (by simp [hx])
      have := mem_of_user? hu
      rw [hnil] at this
      cases this

end Consequences

/-- Per-xid latches: in every interleaving of entering, waiting for or trying the mutex, letting
go and leaving, by any number of users, two users alive share a mutex exactly when they share
an xid; at most one user of an xid holds its mutex; a waiting user gets its mutex exactly when
no user of its own xid holds it; an xid has an entry exactly when a user of it is alive, and
the entry counts those users; so the table is empty exactly when no user is alive. -/
theorem latches_exclusive_per_xid_and_counted (events : List LatchEvent) :
    let w := ({} : LatchWorld).run events
    (∀ i j u v, w.user? i = some u → w.user? j = some v → (u.xid = v.xid ↔ u.mutex = v.mutex)) ∧
    (∀ i j u v, w.user? i = some u → w.user? j = some v → u.xid = v.xid →
      u.phase = .holding → v.phase = .holding → i = j) ∧
    (∀ i u, w.user? i = some u → u.phase = .waiting →
      (((w.step (.acquire i)).user? i).map (·.phase) = some .holding ↔
        ∀ j v, w.user? j = some v → v.xid = u.xid → v.phase ≠ .holding)) ∧
    (∀ xid, (w.latches.entry? xid).isSome ↔ ∃ i u, w.user? i = some u ∧ u.xid = xid) ∧
    (∀ xid e, w.latches.entry? xid = some e → e.users = w.users.countP (·.2.xid == xid)) ∧
    (w.latches.size = 0 ↔ w.users = []) := by
  intro w
  have h : w.Coherent := coherent_empty.run events
  exact ⟨fun _ _ _ _ hu hv => h.xid_eq_iff_mutex_eq hu hv,
    fun _ _ _ _ hu hv hx hhu hhv => h.holder_unique hu hv hx hhu hhv,
    fun _ _ hu hwait => h.acquire_takes_iff hu hwait,
    h.entry?_isSome_iff, fun _ _ he => h.users_eq he, h.size_eq_zero_iff⟩

end LatchWorld

end GlobalTxn
