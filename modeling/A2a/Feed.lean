import Mathlib.Data.List.Basic
import Mathlib.Data.List.Range

/-!
# A2a.Feed

A channel that keeps a snapshot: everything that was published on it, with
the snapshot after each entry, and the entries that were sent to those who
listened.

An entry is numbered from one, is first published and then sent.  A follower
that listens from a place of the channel on, and leaves out what a snapshot
covered already, gets every later entry once (`Synced`):

* `Synced.listen` — it may begin at any moment, also between the two;
* `Synced.publish`, `Synced.send` — and stays in step with what follows;
* `Synced.receive` — what it gets is the next entry it has not seen;
* `Synced.caught_up` — with nothing left to get it has seen all.

Nothing here names a program.
-/

namespace A2a

/-- What was published on a channel, each with the snapshot after it, and
what was sent of it, by number.  While the last entry is `pending` it may
still be sent. -/
structure Feed (E S : Type) where
  start : S
  log : List (E × S)
  sent : List (Nat × E)
  pending : Bool

namespace Feed

variable {E S : Type} {f : Feed E S} {next min k m : Nat} {e : E} {s : S}

/-- The snapshot after `k` entries. -/
def snapshotAt (f : Feed E S) : Nat → S
  | 0 => f.start
  | k + 1 => (f.log[k]?.map (·.2)).getD f.start

/-- The snapshot the channel has now. -/
def last (f : Feed E S) : S := f.snapshotAt f.log.length

/-- The entries after the first `k`, up to the `m`-th. -/
def between (f : Feed E S) (k m : Nat) : List E := ((f.log.take m).drop k).map (·.1)

/-- How many entries will not be sent any more. -/
def settled (f : Feed E S) : Nat := if f.pending then f.log.length - 1 else f.log.length

/-- What was sent are settled entries, under their numbers. -/
structure Ok (f : Feed E S) : Prop where
  pending : f.pending = true → f.log ≠ []
  sent : ∀ p ∈ f.sent, 1 ≤ p.1 ∧ f.log[p.1 - 1]?.map (·.1) = some p.2

/-- A follower has the channel from `next` on to get, and has seen the first
`min` entries: what is there to get are the settled entries from some number
on that is at most the one after. -/
def Synced (f : Feed E S) (next min : Nat) : Prop :=
  next ≤ f.sent.length ∧ min ≤ f.log.length ∧ ∃ a, a ≤ min + 1 ∧ a ≤ f.settled + 1 ∧
    (f.sent.drop next).map (·.1) = List.range' a (f.settled + 1 - a)

/-! ## what happens to a feed -/

/-- An entry is published. -/
def publish (f : Feed E S) (e : E) (s : S) : Feed E S :=
  { f with log := f.log ++ [(e, s)], pending := true }

/-- The pending entry is sent. -/
def send (f : Feed E S) (e : E) : Feed E S :=
  { f with sent := f.sent ++ [(f.log.length, e)], pending := false }

/-- The pending entry is not sent, for nobody listens. -/
def drop (f : Feed E S) : Feed E S := { f with pending := false }

theorem settled_le (f : Feed E S) : f.settled ≤ f.log.length := by
  rw [settled]
  split <;> omega

@[simp] theorem settled_publish (h : f.pending = false) : (f.publish e s).settled = f.settled := by
  simp [settled, publish, h]

@[simp] theorem settled_send : (f.send e).settled = f.log.length := by simp [settled, send]

@[simp] theorem settled_drop : f.drop.settled = f.log.length := by simp [settled, drop]

theorem settled_of_pending (hok : f.Ok) (h : f.pending = true) : f.settled + 1 = f.log.length := by
  have hpos := List.length_pos_iff.mpr (hok.pending h)
  rw [settled, if_pos h]
  omega

theorem settled_of_not_pending (h : f.pending = false) : f.settled = f.log.length := by
  simp [settled, h]

/-- A feed on which nothing was published. -/
def fresh (s : S) : Feed E S := ⟨s, [], [], false⟩

theorem Ok.fresh (s : S) : (fresh s : Feed E S).Ok := by
  constructor <;> simp [Feed.fresh]

theorem Ok.publish (hok : f.Ok) (e : E) (s : S) : (f.publish e s).Ok where
  pending _ := by simp [Feed.publish]
  sent p hp := by
    obtain ⟨hpos, hlog⟩ := hok.sent p hp
    refine ⟨hpos, ?_⟩
    have hlt : p.1 - 1 < f.log.length := by
      by_contra hge
      rw [List.getElem?_eq_none (Nat.le_of_not_lt hge)] at hlog
      contradiction
    rw [Feed.publish, List.getElem?_append_left hlt, hlog]

theorem Ok.send (hok : f.Ok) (he : f.log.getLast?.map (·.1) = some e) : (f.send e).Ok where
  pending h := by contradiction
  sent p hp := by
    rcases List.mem_append.mp hp with hp | hp
    · exact hok.sent p hp
    · obtain rfl := List.mem_singleton.mp hp
      rw [List.getLast?_eq_getElem?] at he
      refine ⟨?_, he⟩
      show 1 ≤ f.log.length
      by_contra hlen
      have hnil : f.log = [] := List.length_eq_zero_iff.mp (by omega)
      simp [hnil] at he

theorem Ok.drop (hok : f.Ok) : f.drop.Ok where
  pending h := by contradiction
  sent := hok.sent

/-! ## snapshots and entries -/

theorem snapshotAt_publish (h : k ≤ f.log.length) :
    (f.publish e s).snapshotAt k = f.snapshotAt k := by
  cases k with
  | zero => rfl
  | succ k => rw [snapshotAt, snapshotAt, publish, List.getElem?_append_left h]

theorem snapshotAt_last : (f.publish e s).snapshotAt (f.log.length + 1) = s := by
  simp [snapshotAt, publish]

@[simp] theorem last_publish : (f.publish e s).last = s := by
  rw [last, publish, List.length_append, List.length_singleton]
  exact snapshotAt_last

@[simp] theorem last_send : (f.send e).last = f.last := rfl

@[simp] theorem last_drop : f.drop.last = f.last := rfl

theorem between_self (f : Feed E S) (k : Nat) : f.between k k = [] := by
  rw [between, List.drop_eq_nil_of_le (by rw [List.length_take]; omega)]
  rfl

theorem between_publish (h : m ≤ f.log.length) : (f.publish e s).between k m = f.between k m := by
  rw [between, between, publish, List.take_append_of_le_length h]

/-- One entry more. -/
theorem between_succ (hk : k ≤ m) (he : f.log[m]?.map (·.1) = some e) :
    f.between k (m + 1) = f.between k m ++ [e] := by
  obtain ⟨p, hp, rfl⟩ := Option.map_eq_some_iff.mp he
  obtain ⟨hlt, hget⟩ := List.getElem?_eq_some_iff.mp hp
  rw [between, between, List.take_succ_eq_append_getElem hlt, List.drop_append_of_le_length,
    List.map_append, hget]
  · rfl
  · rw [List.length_take]
    omega

/-! ## followers -/

namespace Synced

/-- Whoever listens has all to get that will be sent from now on, and the
snapshot covers the rest. -/
theorem listen (f : Feed E S) : f.Synced f.sent.length f.log.length := by
  refine ⟨Nat.le_refl _, Nat.le_refl _, f.settled + 1, ?_, Nat.le_refl _, ?_⟩
  · have hle := f.settled_le
    omega
  · rw [List.drop_length, Nat.sub_self]
    rfl

/-- A snapshot that covers more will do as well. -/
theorem mono (h : f.Synced next min) {min' : Nat} (hle : min ≤ min') (hlog : min' ≤ f.log.length) :
    f.Synced next min' := by
  obtain ⟨hnext, _, a, hamin, hasettled, hdrop⟩ := h
  exact ⟨hnext, hlog, a, by omega, hasettled, hdrop⟩

theorem publish (h : f.Synced next min) (hidle : f.pending = false) :
    (f.publish e s).Synced next min := by
  obtain ⟨hnext, hmin, a, hamin, hasettled, hdrop⟩ := h
  refine ⟨hnext, ?_, a, hamin, ?_, ?_⟩
  · rw [Feed.publish, List.length_append]
    omega
  · rw [settled_publish hidle]
    exact hasettled
  · rw [settled_publish hidle]
    exact hdrop

theorem send (h : f.Synced next min) (hok : f.Ok) (hpending : f.pending = true) :
    (f.send e).Synced next min := by
  obtain ⟨hnext, hmin, a, hamin, hasettled, hdrop⟩ := h
  have hlength := settled_of_pending hok hpending
  refine ⟨?_, hmin, a, hamin, ?_, ?_⟩
  · rw [Feed.send, List.length_append]
    omega
  · rw [settled_send]
    omega
  · have hsucc : f.log.length + 1 - a = f.settled + 1 - a + 1 := by omega
    have hlast : a + 1 * (f.settled + 1 - a) = f.log.length := by omega
    rw [settled_send, Feed.send, List.drop_append_of_le_length hnext, List.map_append, hdrop, hsucc,
      List.range'_concat, hlast]
    rfl

/-- The follower gets an entry it has seen, or the next one. -/
theorem receive (h : f.Synced next min) (hok : f.Ok) {j : Nat} (hj : f.sent[next]? = some (j, e)) :
    f.Synced (next + 1) (max min j) ∧
      (min < j → j = min + 1 ∧ f.log[min]?.map (·.1) = some e) := by
  obtain ⟨hnext, hmin, a, hamin, hasettled, hdrop⟩ := h
  obtain ⟨hlt, hget⟩ := List.getElem?_eq_some_iff.mp hj
  have hcons := List.drop_eq_getElem_cons hlt
  obtain ⟨hpos, hlog⟩ := hok.sent (j, e) (List.mem_of_getElem? hj)
  have hjlt : j - 1 < f.log.length := by
    by_contra hge
    rw [List.getElem?_eq_none (Nat.le_of_not_lt hge)] at hlog
    contradiction
  rw [hcons, hget, List.map_cons] at hdrop
  cases hcount : f.settled + 1 - a with
  | zero =>
      rw [hcount] at hdrop
      contradiction
  | succ n =>
      rw [hcount, List.range'_succ] at hdrop
      obtain ⟨hja, hrest⟩ := List.cons.inj hdrop
      have hja : j = a := hja
      constructor
      · refine ⟨hlt, by simp only [] at hpos; omega, a + 1, by omega, by omega, ?_⟩
        rw [hrest]
        congr 1
        omega
      · intro hminj
        have hsucc : j = min + 1 := by omega
        refine ⟨hsucc, ?_⟩
        rw [← hlog, hsucc]
        rfl

/-- A follower with nothing left to get has seen all that is settled. -/
theorem caught_up (h : f.Synced next min) (hidle : f.pending = false)
    (hend : f.sent[next]? = none) : min = f.log.length := by
  obtain ⟨hnext, hmin, a, hamin, hasettled, hdrop⟩ := h
  rw [List.getElem?_eq_none_iff] at hend
  rw [List.drop_eq_nil_of_le hend, settled_of_not_pending hidle] at hdrop
  have hempty : f.log.length + 1 - a = 0 := by
    have hlength := congrArg List.length hdrop
    simpa using hlength.symm
  omega

end Synced

end Feed

end A2a
