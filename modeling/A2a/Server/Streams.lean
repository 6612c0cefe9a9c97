import A2a.Server.Publication

/-!
# A2a.Server.Streams

The streams of an execution and the channel they follow.

A stream has yielded a snapshot, unless it is a sender's, and then what was
published after it, up to some entry (`Subscription.Reading`).  It has the
rest before it while it is open (`Subscription.Follows`), and nothing that it
should have yielded once it is over (`Subscription.Over`).
-/

namespace A2a

/-- An entry of a feed, as it is sent. -/
def toEvent (p : Nat × Item) : ExecutionEvent := ⟨p.1, p.2⟩

namespace Subscription

/-- What a stream that joined after `k` entries opens with: the snapshot, if
it is a resumed one. -/
def opens (f : Feed Item Task) (resumed : Bool) (k : Nat) : List Item :=
  if resumed then [.ok (.task (f.snapshotAt k))] else []

/-- What a stream of the channel has yielded, if it joined after `k` entries:
nothing yet, or what it opens with and each entry since then, and at the end
perhaps the lag error. -/
inductive Reads (f : Feed Item Task) (resumed : Bool) (sub : Subscription) (k : Nat) : Prop
  | opening (hresumed : resumed = true) (hmin : sub.minSequence = k)
      (htask : sub.snapshotTask = some (f.snapshotAt k)) (hyielded : sub.yielded = [])
  | going (hk : k ≤ sub.minSequence) (htask : sub.snapshotTask = none)
      (hyielded : sub.yielded = opens f resumed k ++ f.between k sub.minSequence)
  | lagged (hk : k ≤ sub.minSequence) (htask : sub.snapshotTask = none)
      (hlive : (opens f resumed k ++ f.between k sub.minSequence).getLast?.any endsStream = false)
      (hyielded : sub.yielded =
        opens f resumed k ++ f.between k sub.minSequence ++ [.error lagError])

/-- A stream is where its channel has it. -/
structure Reading (f : Feed Item Task) (resumed : Bool) (sub : Subscription) : Prop where
  reads : ∃ k, sub.Reads f resumed k ∧ (resumed = false → k = 0)
  bound : sub.minSequence ≤ f.log.length
  done : sub.done = sub.yielded.getLast?.any endsStream

/-- An open stream has the rest of its channel before it. -/
structure Follows (f : Feed Item Task) (resumed : Bool) (sub : Subscription) : Prop extends
    Reading f resumed sub where
  synced : ∀ receiver, sub.receiver = some receiver → sub.done = false →
    f.Synced receiver.next sub.minSequence

/-- A stream that is over has yielded a last item, or all there was. -/
structure Over (f : Feed Item Task) (resumed : Bool) (sub : Subscription) : Prop extends
    Reading f resumed sub where
  caughtUp : sub.done = false → sub.snapshotTask = none ∧ sub.minSequence = f.log.length

variable {f f' : Feed Item Task} {resumed : Bool} {sub sub' : Subscription} {k : Nat}

/-! ## what happens to the channel -/

theorem Reads.publish {item : Item} {task : Task} (h : sub.Reads f resumed k)
    (hbound : sub.minSequence ≤ f.log.length) : sub.Reads (f.publish item task) resumed k := by
  have hopens (hk : k ≤ f.log.length) : opens (f.publish item task) resumed k = opens f resumed k := by
    rw [opens, opens, Feed.snapshotAt_publish hk]
  cases h with
  | opening hresumed hmin htask hyielded =>
      refine .opening hresumed hmin ?_ hyielded
      rw [Feed.snapshotAt_publish (by omega)]
      exact htask
  | going hk htask hyielded =>
      refine .going hk htask ?_
      rw [hopens (by omega), Feed.between_publish hbound]
      exact hyielded
  | lagged hk htask hlive hyielded =>
      have hsame := hopens (by omega)
      refine .lagged hk htask ?_ ?_
      · rw [hsame, Feed.between_publish hbound]
        exact hlive
      · rw [hsame, Feed.between_publish hbound]
        exact hyielded

theorem Reading.publish {item : Item} {task : Task} (h : sub.Reading f resumed) :
    sub.Reading (f.publish item task) resumed where
  reads := by
    obtain ⟨k, hreads, hsender⟩ := h.reads
    exact ⟨k, hreads.publish h.bound, hsender⟩
  bound := by
    have hbound := h.bound
    rw [Feed.publish, List.length_append]
    omega
  done := h.done

/-- What is sent of a channel matters to what is yet to be received only. -/
theorem Reading.of_log (h : sub.Reading f resumed) (hstart : f'.start = f.start)
    (hlog : f'.log = f.log) : sub.Reading f' resumed := by
  obtain ⟨start, log, sent, pending⟩ := f
  obtain ⟨start', log', sent', pending'⟩ := f'
  obtain rfl : start' = start := hstart
  obtain rfl : log' = log := hlog
  obtain ⟨⟨k, hreads, hsender⟩, hbound, hdone⟩ := h
  refine ⟨⟨k, ?_, hsender⟩, hbound, hdone⟩
  cases hreads with
  | opening hresumed hmin htask hyielded => exact .opening hresumed hmin htask hyielded
  | going hk htask hyielded => exact .going hk htask hyielded
  | lagged hk htask hlive hyielded => exact .lagged hk htask hlive hyielded

theorem Follows.publish {item : Item} {task : Task} (h : sub.Follows f resumed)
    (hidle : f.pending = false) : sub.Follows (f.publish item task) resumed :=
  ⟨h.toReading.publish, fun receiver hreceiver hlive => (h.synced receiver hreceiver hlive).publish hidle⟩

theorem Follows.send {item : Item} (h : sub.Follows f resumed) (hok : f.Ok)
    (hpending : f.pending = true) : sub.Follows (f.send item) resumed :=
  ⟨h.toReading.of_log rfl rfl,
    fun receiver hreceiver hlive => (h.synced receiver hreceiver hlive).send hok hpending⟩

/-! ## how a stream begins -/

/-- A stream of a resubscription in step with the channel. -/
theorem follows_ofResubscription {receiver : Receiver} {sequence : Nat}
    (h : f.Synced receiver.next sequence) :
    (ofResubscription ⟨some receiver, f.snapshotAt sequence, sequence⟩).Follows f true where
  reads := ⟨sequence, .opening rfl rfl rfl rfl, fun h => by contradiction⟩
  bound := h.2.1
  done := rfl
  synced receiver' hreceiver _ := by
    obtain rfl := Option.some.inj hreceiver
    exact h

/-- A sender's stream joins before anything is published. -/
theorem follows_ofReceiver {receiver : Receiver} (h : f.Synced receiver.next 0) :
    (ofReceiver receiver).Follows f false where
  reads := ⟨0, .going (Nat.le_refl 0) rfl (Feed.between_self f 0).symm, fun _ => rfl⟩
  bound := Nat.zero_le _
  done := rfl
  synced receiver' hreceiver _ := by
    obtain rfl := Option.some.inj hreceiver
    exact h

/-! ## how it goes on -/

/-- An open stream that yielded its snapshot has gone on from there. -/
theorem Follows.going (h : sub.Follows f resumed) (hlive : sub.done = false)
    (htask : sub.snapshotTask = none) : ∃ k, k ≤ sub.minSequence ∧ (resumed = false → k = 0) ∧
      sub.yielded = opens f resumed k ++ f.between k sub.minSequence := by
  obtain ⟨k, hreads, hsender⟩ := h.reads
  cases hreads with
  | opening _ _ hsome =>
      rw [htask] at hsome
      contradiction
  | going hk _ hyielded => exact ⟨k, hk, hsender, hyielded⟩
  | lagged _ _ _ hyielded =>
      have hdone := h.done
      rw [hyielded, List.getLast?_concat, hlive] at hdone
      contradiction

/-- The stream yields its snapshot. -/
theorem Follows.yieldSnapshot (h : sub.Follows f resumed) (hlive : sub.done = false) {task : Task}
    (htask : sub.snapshotTask = some task) : (sub.yieldSnapshot task).Follows f resumed := by
  obtain ⟨k, hreads, hsender⟩ := h.reads
  cases hreads with
  | opening hresumed hmin hsome hyielded =>
      rw [htask] at hsome
      obtain rfl := Option.some.inj hsome
      refine ⟨⟨⟨k, .going (Nat.le_of_eq hmin.symm) rfl ?_, hsender⟩, h.bound, ?_⟩, ?_⟩
      · show sub.yielded ++ _ = opens f resumed k ++ f.between k sub.minSequence
        rw [hyielded, hmin, Feed.between_self, opens, hresumed, if_pos rfl]
        rfl
      · show _ = (sub.yielded ++ [_]).getLast?.any endsStream
        rw [List.getLast?_concat]
        rfl
      · intro receiver hreceiver _
        exact h.synced receiver hreceiver hlive
  | going _ hnone =>
      rw [htask] at hnone
      contradiction
  | lagged _ hnone =>
      rw [htask] at hnone
      contradiction

/-- The stream receives an event. -/
theorem Follows.receive (h : sub.Follows f resumed) (hok : f.Ok) (hlive : sub.done = false)
    (htask : sub.snapshotTask = none) {receiver : Receiver} (hreceiver : sub.receiver = some receiver)
    {p : Nat × Item} (hp : f.sent[receiver.next]? = some p) :
    (sub.receive { receiver with next := receiver.next + 1 } (toEvent p)).Follows f resumed := by
  obtain ⟨k, hk, hsender, hyielded⟩ := h.going hlive htask
  obtain ⟨hsynced, hnext⟩ := (h.synced receiver hreceiver hlive).receive hok hp
  rw [Subscription.receive]
  by_cases hseen : (toEvent p).sequence ≤ sub.minSequence
  · rw [if_pos hseen]
    have hmax : max sub.minSequence p.1 = sub.minSequence := Nat.max_eq_left hseen
    rw [hmax] at hsynced
    refine ⟨⟨⟨k, .going hk htask hyielded, hsender⟩, h.bound, h.done⟩, fun receiver' hreceiver' _ => ?_⟩
    obtain rfl := Option.some.inj hreceiver'
    exact hsynced
  · rw [if_neg hseen]
    have hlt : sub.minSequence < p.1 := Nat.lt_of_not_le hseen
    obtain ⟨hsucc, hentry⟩ := hnext hlt
    have hmax : max sub.minSequence p.1 = p.1 := Nat.max_eq_right (Nat.le_of_lt hlt)
    rw [hmax] at hsynced
    refine ⟨⟨⟨k, .going ?_ htask ?_, hsender⟩, hsynced.2.1, ?_⟩, fun receiver' hreceiver' _ => ?_⟩
    · exact Nat.le_trans hk (Nat.le_of_lt hlt)
    · show sub.yielded ++ [p.2] = opens f resumed k ++ f.between k p.1
      rw [hyielded, hsucc, Feed.between_succ hk hentry, List.append_assoc]
    · show endsStream p.2 = (sub.yielded ++ [p.2]).getLast?.any endsStream
      rw [List.getLast?_concat]
      rfl
    · obtain rfl := Option.some.inj hreceiver'
      exact hsynced

/-- The stream lags. -/
theorem Follows.yieldLag (h : sub.Follows f resumed) (hlive : sub.done = false)
    (htask : sub.snapshotTask = none) : sub.yieldLag.Follows f resumed := by
  obtain ⟨k, hk, hsender, hyielded⟩ := h.going hlive htask
  refine ⟨⟨⟨k, .lagged hk htask ?_ ?_, hsender⟩, h.bound, ?_⟩, fun _ _ hlive => by contradiction⟩
  · rw [← hlive, h.done, hyielded]
    rfl
  · rw [Subscription.yieldLag, hyielded]
  · show true = (sub.yielded ++ [_]).getLast?.any endsStream
    rw [List.getLast?_concat]
    rfl

/-- **A poll keeps a stream in step** with its channel. -/
theorem Follows.polls {s : Server} {o : Option (Option Item)} (h : sub.Follows f resumed)
    (hok : f.Ok) (hp : sub.Polls s sub' o)
    (hsent : ∀ receiver active, sub.receiver = some receiver →
      s.executions[receiver.exec]? = some active → active.sent = f.sent.map toEvent) :
    sub'.Follows f resumed := by
  cases hp with
  | done => exact h
  | unattached => exact h
  | closed => exact h
  | snapshot hlive htask => exact h.yieldSnapshot hlive htask
  | lagged hlive htask => exact h.yieldLag hlive htask
  | event hlive htask hreceiver hactive _ hevent =>
      rw [hsent _ _ hreceiver hactive, List.getElem?_map, Option.map_eq_some_iff] at hevent
      obtain ⟨p, hp, rfl⟩ := hevent
      exact h.receive hok hlive htask hreceiver hp

/-- **A stream that ends by itself** has yielded a last item, or all there
was. -/
theorem Follows.ends {s : Server} {receiver : Receiver} (h : sub.Follows f resumed)
    (hp : sub.Polls s sub' (some none)) (hreceiver : sub.receiver = some receiver)
    (hsent : ∀ active, s.executions[receiver.exec]? = some active →
      active.sent = f.sent.map toEvent)
    (hidle : s.channelClosed receiver.exec = true → f.pending = false) :
    sub' = sub ∧ sub.Over f resumed ∧
      (sub.done = false → s.channelClosed receiver.exec = true) := by
  generalize ho : (some none : Option (Option Item)) = o at hp
  cases hp with
  | done hdone =>
      refine ⟨rfl, ⟨h.toReading, fun hlive => ?_⟩, fun hlive => ?_⟩ <;>
      · rw [hdone] at hlive
        contradiction
  | unattached _ _ hnone =>
      rw [hreceiver] at hnone
      contradiction
  | snapshot => cases ho
  | lagged => cases ho
  | event => split at ho <;> cases ho
  | closed hlive htask hreceiver' hactive hend hclosed =>
      rw [hreceiver] at hreceiver'
      obtain rfl := Option.some.inj hreceiver'
      rw [hsent _ hactive, List.getElem?_map, Option.map_eq_none_iff] at hend
      have hcaught := (h.synced receiver hreceiver hlive).caught_up (hidle hclosed) hend
      exact ⟨rfl, ⟨h.toReading, fun _ => ⟨htask, hcaught⟩⟩, fun _ => hclosed⟩

end Subscription

end A2a
