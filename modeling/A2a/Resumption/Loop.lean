import A2a.Resumption
import A2a.Sse.Wire

/-!
# A2a.Resumption.Loop

What `subscribe_with_resumption` prints, saves and returns, for any script
of streams, calls and clock readings (`subscription_resumed`).

The reference is read off the inputs alone: `toPrint` are the events to be
printed, `toSave` those received, and `OutageSince` is that an outage began
at some reading of the clock and nothing has been printed since.

Inputs are listed newest first.
-/

namespace A2a

/-! ## the reference -/

namespace SubscribeInput

def event? : SubscribeInput → Option StreamResponse
  | .event value _ _ => some value
  | _ => none

/-- The stream is over, or its connection failed. -/
def isCut : SubscribeInput → Bool
  | .ended => true
  | .error failure => isConnectionFailure failure
  | _ => false

/-- A resubscribe call has come back. -/
def isAnswer : SubscribeInput → Bool
  | .subscribed => true
  | .refused _ => true
  | _ => false

end SubscribeInput

/-- How many resubscribe calls have come back. -/
def answered (inputs : List SubscribeInput) : Nat := inputs.countP SubscribeInput.isAnswer

/-- The events received. -/
def toSave : List SubscribeInput → List StreamResponse
  | [] => []
  | input :: earlier => toSave earlier ++ input.event?.toList

/-- The last state an event carried. -/
def lastSeen : List SubscribeInput → Option TaskState
  | [] => none
  | input :: earlier => (input.event?.bind streamResponseState).or (lastSeen earlier)

/-- Whether a stream was just reconnected. -/
def reconnected : List SubscribeInput → Bool
  | .subscribed :: _ => true
  | _ => false

/-- Whether an event is the first of a reconnected stream and carries the
state last seen. -/
def repeats (earlier : List SubscribeInput) (event : StreamResponse) : Bool :=
  reconnected earlier && (streamResponseState event).isSome &&
    streamResponseState event == lastSeen earlier

/-- The events to be printed: all but those. -/
def toPrint : List SubscribeInput → List StreamResponse
  | [] => []
  | input :: earlier =>
      match input.event? with
      | none => toPrint earlier
      | some event => if repeats earlier event then toPrint earlier else toPrint earlier ++ [event]

/-- Something is printed after each cut. -/
def NoOutage (inputs : List SubscribeInput) : Prop :=
  ∀ after cut before, inputs = after ++ cut :: before → cut.isCut = true →
    (toPrint before).length < (toPrint inputs).length

/-- An outage began at `start`: with the first cut since anything was
printed, and nothing has been printed since. -/
def OutageSince (inputs : List SubscribeInput) (start : Nat) : Prop :=
  ∃ after cut before, inputs = after ++ .clock start :: cut :: before ∧ cut.isCut = true ∧
    NoOutage before ∧ toPrint inputs = toPrint before

/-- The stream was over with the task settled. -/
def EndsSettled (inputs : List SubscribeInput) : Prop :=
  ∃ cut earlier, inputs = cut :: earlier ∧ cut.isCut = true ∧
    (lastSeen earlier).any isSettled = true

/-- The outage had lasted for the timeout. -/
def TimedOut (timeout : Nat) (inputs : List SubscribeInput) : Prop :=
  ∃ now earlier start, inputs = .clock now :: earlier ∧ OutageSince earlier start ∧
    start + timeout ≤ now

variable {inputs : List SubscribeInput} {input : SubscribeInput} {event : StreamResponse}
  {cmd : SubscribeCommand} {l l' : SubscribeLoop}

theorem toPrint_cons_of_none (h : input.event? = none) (inputs : List SubscribeInput) :
    toPrint (input :: inputs) = toPrint inputs := by
  rw [toPrint, h]

/-- What was to be printed stays so. -/
theorem toPrint_append (after before : List SubscribeInput) :
    (toPrint before).length ≤ (toPrint (after ++ before)).length := by
  induction after with
  | nil => exact Nat.le_refl _
  | cons input after ih =>
      rw [List.cons_append, toPrint]
      cases input.event? with
      | none => exact ih
      | some event =>
          by_cases hrepeats : repeats (after ++ before) event = true
          · simpa [hrepeats] using ih
          · simp only [hrepeats, Bool.false_eq_true, if_false, List.length_append]
            omega

theorem event?_of_isCut (h : input.isCut = true) : input.event? = none := by
  cases input <;> first | rfl | contradiction

theorem answered_cons_of_isCut (h : input.isCut = true) (inputs : List SubscribeInput) :
    answered (input :: inputs) = answered inputs := by
  cases input <;> first | rfl | contradiction

theorem noOutage_nil : NoOutage [] := by
  intro after cut before h
  simp at h

/-- An input that shows nothing new and is no cut. -/
theorem NoOutage.cons (h : NoOutage inputs) (hcut : input.isCut = false)
    (hshown : toPrint (input :: inputs) = toPrint inputs) : NoOutage (input :: inputs) := by
  intro after cut before hsplit hiscut
  cases after with
  | nil =>
      obtain ⟨rfl, _⟩ := List.cons.inj hsplit
      rw [hcut] at hiscut
      contradiction
  | cons first after =>
      obtain ⟨_, hrest⟩ := List.cons.inj hsplit
      rw [hshown]
      exact h after cut before hrest hiscut

/-- Whatever cut came before, something to be printed comes after it. -/
theorem noOutage_of_toPrint (hcut : input.isCut = false)
    (hshown : (toPrint inputs).length < (toPrint (input :: inputs)).length) :
    NoOutage (input :: inputs) := by
  intro after cut before hsplit hiscut
  cases after with
  | nil =>
      obtain ⟨rfl, _⟩ := List.cons.inj hsplit
      rw [hcut] at hiscut
      contradiction
  | cons first after =>
      obtain ⟨_, hrest⟩ := List.cons.inj hsplit
      change inputs = after ++ cut :: before at hrest
      have hmore := toPrint_append (after ++ [cut]) before
      rw [List.append_assoc, List.singleton_append, ← hrest] at hmore
      omega

theorem OutageSince.cons {start : Nat} (h : OutageSince inputs start)
    (hshown : toPrint (input :: inputs) = toPrint inputs) : OutageSince (input :: inputs) start := by
  obtain ⟨after, cut, before, hsplit, hcut, hnoOutage, hsame⟩ := h
  exact ⟨input :: after, cut, before, by rw [hsplit]; rfl, hcut, hnoOutage, hshown.trans hsame⟩

/-! ## the loop while it runs -/

/-- How many calls are on their way. -/
def SubscribeLoop.pending (l : SubscribeLoop) : Nat :=
  match l.phase with
  | .resubscribing => 1
  | _ => 0

/-- What a loop that has not returned has done with its inputs. -/
structure SubscribeLoop.Tracks (cmd : SubscribeCommand) (inputs : List SubscribeInput)
    (l : SubscribeLoop) : Prop where
  destroyed : l.destroyed = 0
  lastState : l.lastState = lastSeen inputs
  printed : l.printed = toPrint inputs
  saved : l.saved = toSave inputs
  first : l.phase = .reading → l.firstEvent = reconnected inputs ∧
    (l.firstEvent = true → l.stateBeforeThisAttempt = lastSeen inputs)
  attempt : l.attempt = UInt32.ofNat (answered inputs + l.pending)
  outage : ∀ deadline, l.outageDeadline = some deadline →
    ∃ start, deadline = start + cmd.timeout ∧ OutageSince inputs start
  noOutage : l.phase = .reading → l.outageDeadline = none → NoOutage inputs
  interrupted : l.phase = .interrupted →
    ∃ cut earlier, inputs = cut :: earlier ∧ cut.isCut = true ∧ NoOutage earlier
  retry : l.phase = .retrying ∨ l.phase = .resubscribing → l.outageDeadline ≠ none

def SubscribeLoop.hasReturned (l : SubscribeLoop) : Bool :=
  match l.phase with
  | .returned _ => true
  | _ => false

open SubscribeLoop

theorem tracks_start (cmd : SubscribeCommand) : SubscribeLoop.start.Tracks cmd [] where
  destroyed := rfl
  lastState := rfl
  printed := rfl
  saved := rfl
  first _ := ⟨rfl, fun h => by contradiction⟩
  attempt := rfl
  outage _ h := by contradiction
  noOutage _ _ := noOutage_nil
  interrupted h := by contradiction
  retry h := by simp [SubscribeLoop.start] at h

/-- The loop takes a repeated event for what it is. -/
theorem SubscribeLoop.Tracks.unchanged_eq (h : l.Tracks cmd inputs) (hphase : l.phase = .reading)
    (event : StreamResponse) : l.unchanged event = repeats inputs event := by
  obtain ⟨hfirst, hbefore⟩ := h.first hphase
  unfold SubscribeLoop.unchanged repeats
  rw [hfirst] at hbefore ⊢
  cases hreconnected : reconnected inputs with
  | false => rfl
  | true => rw [hbefore hreconnected]

/-- What an event of the stream leaves of a loop that goes on. -/
theorem SubscribeLoop.onEvent_cases {printing saving : Except String Unit}
    (hopen : (l.onEvent event printing saving).hasReturned = false) :
    l.onEvent event printing saving = { l with
      lastState := (streamResponseState event).or l.lastState
      firstEvent := false
      printed := if l.unchanged event then l.printed else l.printed ++ [event]
      saved := l.saved ++ [event]
      outageDeadline := if l.unchanged event then l.outageDeadline else none } := by
  unfold onEvent at hopen ⊢
  cases hunchanged : l.unchanged event with
  | true =>
      simp only [hunchanged, if_true] at hopen ⊢
      cases saving with
      | error reason => simp [saveOrDestroy, leave, hasReturned] at hopen
      | ok _ => rfl
  | false =>
      simp only [hunchanged, Bool.false_eq_true, if_false] at hopen ⊢
      cases printing with
      | error reason => simp [printOrDestroy, leave, hasReturned] at hopen
      | ok _ =>
          cases saving with
          | error reason => simp [printOrDestroy, leave, hasReturned] at hopen
          | ok _ => rfl

theorem toPrint_event (inputs : List SubscribeInput) (event : StreamResponse)
    (printing saving : Except String Unit) :
    toPrint (.event event printing saving :: inputs) =
      if repeats inputs event then toPrint inputs else toPrint inputs ++ [event] := rfl

theorem SubscribeLoop.Tracks.onEvent (h : l.Tracks cmd inputs) (hphase : l.phase = .reading)
    {printing saving : Except String Unit}
    (hopen : (l.onEvent event printing saving).hasReturned = false) :
    (l.onEvent event printing saving).Tracks cmd (.event event printing saving :: inputs) := by
  have hunchanged := h.unchanged_eq hphase event
  have hshown := toPrint_event inputs event printing saving
  rw [onEvent_cases hopen, hunchanged]
  exact {
    destroyed := h.destroyed
    lastState := by rw [h.lastState]; rfl
    printed := by rw [hshown, h.printed]
    saved := by rw [h.saved]; rfl
    first := fun _ => ⟨rfl, fun hno => by contradiction⟩
    attempt := h.attempt
    outage := fun deadline hdeadline => by
      cases hrepeats : repeats inputs event with
      | true =>
          rw [hrepeats, if_pos rfl] at hdeadline
          obtain ⟨start, hstart, hsince⟩ := h.outage deadline hdeadline
          exact ⟨start, hstart, hsince.cons (by rw [hshown, hrepeats, if_pos rfl])⟩
      | false => simp [hrepeats] at hdeadline
    noOutage := fun _ hnone => by
      cases hrepeats : repeats inputs event with
      | true =>
          rw [hrepeats, if_pos rfl] at hnone
          exact (h.noOutage hphase hnone).cons rfl (by rw [hshown, hrepeats, if_pos rfl])
      | false =>
          refine noOutage_of_toPrint rfl ?_
          rw [hshown, hrepeats, if_neg Bool.false_ne_true, List.length_append]
          exact Nat.lt_succ_self _
    interrupted := fun hno => by
      rw [hphase] at hno
      contradiction
    retry := fun hno => by simp [hphase] at hno }

/-- A cut before the task settled. -/
theorem SubscribeLoop.onCut_open {cause : String} (h : (l.onCut cmd cause).hasReturned = false) :
    l.onCut cmd cause = { l with
      phase := if l.outageDeadline.isSome then .retrying else .interrupted
      cause := cause } := by
  unfold onCut at h ⊢
  split
  · next hsettled =>
      rw [if_pos hsettled] at h
      cases hd : cmd.destroying <;> simp [hd, leave, hasReturned] at h
  · rfl

theorem SubscribeLoop.Tracks.onCut (h : l.Tracks cmd inputs) (hphase : l.phase = .reading)
    (hcut : input.isCut = true) {cause : String} (hopen : (l.onCut cmd cause).hasReturned = false) :
    (l.onCut cmd cause).Tracks cmd (input :: inputs) := by
  have hevent := event?_of_isCut hcut
  have hshown := toPrint_cons_of_none hevent inputs
  rw [onCut_open hopen]
  exact {
    destroyed := h.destroyed
    lastState := by rw [lastSeen, hevent, h.lastState]; rfl
    printed := by rw [hshown, h.printed]
    saved := by rw [toSave, hevent, h.saved]; simp
    first := fun hno => by
      cases hd : l.outageDeadline <;> simp [hd] at hno
    attempt := by
      rw [h.attempt, answered_cons_of_isCut hcut]
      cases hd : l.outageDeadline <;> simp [pending, hphase]
    outage := fun deadline hdeadline => by
      obtain ⟨start, hstart, hsince⟩ := h.outage deadline hdeadline
      exact ⟨start, hstart, hsince.cons hshown⟩
    noOutage := fun hno => by
      cases hd : l.outageDeadline <;> simp [hd] at hno
    interrupted := fun hyes => by
      cases hd : l.outageDeadline with
      | none => exact ⟨input, inputs, rfl, hcut, h.noOutage hphase hd⟩
      | some deadline => simp [hd] at hyes
    retry := fun hretry => by
      cases hd : l.outageDeadline <;> simp [hd] at hretry ⊢ }

/-- An input that brings no event and is no cut. -/
theorem SubscribeLoop.Tracks.other (h : l.Tracks cmd inputs) (hevent : input.event? = none)
    (hl : l'.destroyed = l.destroyed ∧ l'.lastState = l.lastState ∧ l'.printed = l.printed ∧
      l'.saved = l.saved)
    (hfirst : l'.phase = .reading → l'.firstEvent = reconnected (input :: inputs) ∧
      (l'.firstEvent = true → l'.stateBeforeThisAttempt = lastSeen inputs))
    (hattempt : l'.attempt = UInt32.ofNat (answered (input :: inputs) + l'.pending))
    (houtage : ∀ deadline, l'.outageDeadline = some deadline →
      ∃ start, deadline = start + cmd.timeout ∧ OutageSince (input :: inputs) start)
    (hdeadline : l'.outageDeadline ≠ none) (hphase : l'.phase ≠ .interrupted) :
    l'.Tracks cmd (input :: inputs) where
  destroyed := hl.1.trans h.destroyed
  lastState := by rw [lastSeen, hevent, hl.2.1, h.lastState]; rfl
  printed := by rw [toPrint_cons_of_none hevent, hl.2.2.1, h.printed]
  saved := by rw [toSave, hevent, hl.2.2.2, h.saved]; simp
  first hp := by
    obtain ⟨hf, hb⟩ := hfirst hp
    refine ⟨hf, fun hyes => ?_⟩
    rw [hb hyes, lastSeen, hevent]
    rfl
  attempt := hattempt
  outage := houtage
  noOutage _ hnone := absurd hnone hdeadline
  interrupted hp := absurd hp hphase
  retry _ := hdeadline

/-- What the loop does with an input where it waits for it. -/
inductive SubscribeLoop.Takes (cmd : SubscribeCommand) (l : SubscribeLoop) :
    SubscribeInput → SubscribeLoop → Prop
  | event {event : StreamResponse} {printing saving : Except String Unit}
      (hphase : l.phase = .reading) :
      Takes cmd l (.event event printing saving) (l.onEvent event printing saving)
  | cut {input : SubscribeInput} (hphase : l.phase = .reading) (hcut : input.isCut = true)
      (cause : String) : Takes cmd l input (l.onCut cmd cause)
  | reported {error : A2AError} (hphase : l.phase = .reading)
      (hreported : isConnectionFailure error = false) :
      Takes cmd l (.error error) (l.leave (.error (.a2a error)))
  | outage {now : Nat} (hphase : l.phase = .interrupted) :
      Takes cmd l (.clock now)
        { l with phase := .retrying, outageDeadline := some (now + cmd.timeout) }
  | retry {now : Nat} (hphase : l.phase = .retrying) : Takes cmd l (.clock now) (l.onRetry cmd now)
  | subscribed (hphase : l.phase = .resubscribing) :
      Takes cmd l .subscribed { l with
        phase := .reading
        stateBeforeThisAttempt := l.lastState
        firstEvent := decide (0 < l.attempt) }
  | refused {error : A2AError} (hphase : l.phase = .resubscribing) :
      Takes cmd l (.refused error) { l with phase := .retrying, cause := error.message }

theorem SubscribeLoop.takes_of_next (hn : l.next cmd input = some l') : l.Takes cmd input l' := by
  unfold SubscribeLoop.next at hn
  split at hn
  · next hphase =>
      obtain rfl := Option.some.inj hn
      exact .event hphase
  · next error hphase =>
      split at hn
      · next hfailure =>
          obtain rfl := Option.some.inj hn
          have hcut : (SubscribeInput.error error).isCut = true := hfailure
          exact .cut hphase hcut _
      · next hreported =>
          obtain rfl := Option.some.inj hn
          exact .reported hphase (Bool.eq_false_iff.mpr hreported)
  · next hphase =>
      obtain rfl := Option.some.inj hn
      exact .cut hphase rfl _
  · next hphase =>
      obtain rfl := Option.some.inj hn
      exact .outage hphase
  · next hphase =>
      obtain rfl := Option.some.inj hn
      exact .retry hphase
  · next hphase =>
      obtain rfl := Option.some.inj hn
      exact .subscribed hphase
  · next hphase =>
      obtain rfl := Option.some.inj hn
      exact .refused hphase
  · contradiction

theorem SubscribeLoop.Tracks.attempt_eq {n : Nat} (h : l.Tracks cmd inputs)
    (hpending : l.pending = n) : l.attempt = UInt32.ofNat (answered inputs + n) := by
  rw [h.attempt, hpending]

/-- **One input**: a loop that goes on has done with it what it should. -/
theorem SubscribeLoop.Tracks.takes (h : l.Tracks cmd inputs) (ht : l.Takes cmd input l')
    (hcount : answered (input :: inputs) < 2 ^ 32) (hopen : l'.hasReturned = false) :
    l'.Tracks cmd (input :: inputs) := by
  have hkept (input : SubscribeInput) (hevent : input.event? = none) (deadline : Nat)
      (hdeadline : l.outageDeadline = some deadline) :
      ∃ start, deadline = start + cmd.timeout ∧ OutageSince (input :: inputs) start := by
    obtain ⟨start, hstart, hsince⟩ := h.outage deadline hdeadline
    exact ⟨start, hstart, hsince.cons (toPrint_cons_of_none hevent inputs)⟩
  cases ht with
  | event hphase => exact h.onEvent hphase hopen
  | cut hphase hcut cause => exact h.onCut hphase hcut hopen
  | reported => simp [leave, hasReturned] at hopen
  | @outage now hphase =>
      obtain ⟨cut, earlier, hsplit, hcut, hnoOutage⟩ := h.interrupted hphase
      have hbegins : OutageSince (.clock now :: inputs) now := by
        refine ⟨[], cut, earlier, by rw [hsplit]; rfl, hcut, hnoOutage, ?_⟩
        rw [toPrint_cons_of_none rfl, hsplit, toPrint_cons_of_none (event?_of_isCut hcut)]
      have hattempt := h.attempt_eq (n := 0) (by rw [pending, hphase])
      refine h.other rfl ⟨rfl, rfl, rfl, rfl⟩ (by simp) hattempt ?_ (by simp) (by simp)
      intro deadline hdeadline
      exact ⟨now, (Option.some.inj hdeadline).symm, hbegins⟩
  | @retry now hphase =>
      unfold onRetry at hopen ⊢
      split
      · next hover => simp [hover, leave, hasReturned] at hopen
      · have hattempt := h.attempt_eq (n := 0) (by rw [pending, hphase])
        refine h.other rfl ⟨rfl, rfl, rfl, rfl⟩ (by simp) ?_ (hkept _ rfl)
          (h.retry (.inl hphase)) (by simp)
        show l.attempt + 1 = UInt32.ofNat (answered inputs + 1)
        rw [hattempt, Nat.add_zero, UInt32.ofNat_add]
        rfl
  | subscribed hphase =>
      have hattempt := h.attempt_eq (n := 1) (by rw [pending, hphase])
      have hanswered : answered (.subscribed :: inputs) = answered inputs + 1 :=
        List.countP_cons_of_pos rfl
      rw [hanswered] at hcount
      have hpos : 0 < l.attempt := by
        rw [UInt32.lt_iff_toNat_lt, hattempt, UInt32.toNat_ofNat', Nat.mod_eq_of_lt hcount]
        exact Nat.succ_pos _
      exact h.other rfl ⟨rfl, rfl, rfl, rfl⟩
        (fun _ => ⟨decide_eq_true hpos, fun _ => h.lastState⟩) (by rw [hanswered]; exact hattempt)
        (hkept _ rfl) (h.retry (.inr hphase)) (by simp)
  | @refused error hphase =>
      have hattempt := h.attempt_eq (n := 1) (by rw [pending, hphase])
      have hanswered : answered (.refused error :: inputs) = answered inputs + 1 :=
        List.countP_cons_of_pos rfl
      exact h.other rfl ⟨rfl, rfl, rfl, rfl⟩ (by simp) (by rw [hanswered]; exact hattempt) (hkept _ rfl)
        (h.retry (.inr hphase)) (by simp)

/-! ## how it ends -/

/-- The agent reported an error, and nothing was awaited after it. -/
def EndsReported (inputs : List SubscribeInput) (error : A2AError) : Prop :=
  ∃ earlier, inputs = .error error :: earlier ∧ isConnectionFailure error = false

/-- What the command has done with its inputs, and whether and how it has
returned. -/
structure SubscribeLoop.Resumed (cmd : SubscribeCommand) (inputs : List SubscribeInput)
    (l : SubscribeLoop) : Prop where
  destroyed : l.destroyed = if l.hasReturned then 1 else 0
  delivered : (∀ reason, l.phase ≠ .returned (.error (.output reason))) →
    l.printed = toPrint inputs ∧ l.saved = toSave inputs
  output : ∀ reason, l.phase = .returned (.error (.output reason)) →
    ∃ event printing saving earlier, inputs = .event event printing saving :: earlier ∧
      l.saved = toSave earlier ∧
      (printing = .error reason ∧ l.printed = toPrint earlier ∨
        saving = .error reason ∧ l.printed = toPrint inputs)
  ok : l.phase = .returned (.ok ()) ↔ EndsSettled inputs ∧ cmd.destroying = .ok ()
  a2a : ∀ error, l.phase = .returned (.error (.a2a error)) ↔
    EndsSettled inputs ∧ cmd.destroying = .error error ∨ EndsReported inputs error
  timeout : ∀ taskId timeout, l.phase = .returned (.error (.timeout taskId timeout)) →
    taskId = cmd.taskId ∧ timeout = cmd.timeout ∧ TimedOut timeout inputs

theorem not_endsSettled (h : input.isCut = false) : ¬ EndsSettled (input :: inputs) := by
  rintro ⟨cut, earlier, hsplit, hcut, -⟩
  obtain ⟨rfl, -⟩ := List.cons.inj hsplit
  rw [h] at hcut
  contradiction

theorem not_endsReported {error : A2AError}
    (h : ∀ error', input = .error error' → isConnectionFailure error' = true) :
    ¬ EndsReported (input :: inputs) error := by
  rintro ⟨earlier, hsplit, hreported⟩
  obtain ⟨rfl, -⟩ := List.cons.inj hsplit
  rw [h error rfl] at hreported
  contradiction

theorem not_endsReported_of_isCut {error : A2AError} (h : input.isCut = true) :
    ¬ EndsReported (input :: inputs) error := by
  apply not_endsReported
  rintro error' rfl
  exact h

/-- A loop that goes on. -/
theorem SubscribeLoop.Tracks.resumed (h : l.Tracks cmd inputs) (hopen : l.hasReturned = false)
    (hsettled : ¬ EndsSettled inputs) (hreported : ∀ error, ¬ EndsReported inputs error) :
    l.Resumed cmd inputs := by
  have hphase (result : Except CliError Unit) : l.phase ≠ .returned result := by
    intro hreturned
    rw [hasReturned, hreturned] at hopen
    contradiction
  exact {
    destroyed := by rw [hopen, h.destroyed]; rfl
    delivered := fun _ => ⟨h.printed, h.saved⟩
    output := fun reason hreturned => absurd hreturned (hphase _)
    ok := ⟨fun hreturned => absurd hreturned (hphase _), fun hends => absurd hends.1 hsettled⟩
    a2a := fun error => by
      constructor
      · intro hreturned
        exact absurd hreturned (hphase _)
      · rintro (hends | hends)
        · exact absurd hends.1 hsettled
        · exact absurd hends (hreported error)
    timeout := fun _ _ hreturned => absurd hreturned (hphase _) }

/-- A loop that is left for another reason than its output. -/
theorem SubscribeLoop.Tracks.leave (h : l.Tracks cmd inputs) (hevent : input.event? = none)
    {result : Except CliError Unit} (houtput : ∀ reason, result ≠ .error (.output reason))
    (hok : result = .ok () ↔ EndsSettled (input :: inputs) ∧ cmd.destroying = .ok ())
    (ha2a : ∀ error, result = .error (.a2a error) ↔
      EndsSettled (input :: inputs) ∧ cmd.destroying = .error error ∨
        EndsReported (input :: inputs) error)
    (htimeout : ∀ taskId timeout, result = .error (.timeout taskId timeout) →
      taskId = cmd.taskId ∧ timeout = cmd.timeout ∧ TimedOut timeout (input :: inputs)) :
    (l.leave result).Resumed cmd (input :: inputs) := by
  have hphase (other : Except CliError Unit) :
      (l.leave result).phase = .returned other ↔ result = other := by
    simp [SubscribeLoop.leave]
  exact {
    destroyed := by
      show l.destroyed + 1 = 1
      rw [h.destroyed]
    delivered := fun _ => by
      rw [toPrint_cons_of_none hevent, toSave, hevent, Option.toList_none, List.append_nil]
      exact ⟨h.printed, h.saved⟩
    output := fun reason hreturned => absurd ((hphase _).mp hreturned) (houtput reason)
    ok := (hphase _).trans hok
    a2a := fun error => (hphase _).trans (ha2a error)
    timeout := fun taskId timeout hreturned => htimeout taskId timeout ((hphase _).mp hreturned) }

/-- A cut of a settled task. -/
theorem SubscribeLoop.Tracks.settled (h : l.Tracks cmd inputs) (hcut : input.isCut = true)
    (hsettled : l.lastState.any isSettled = true) (cause : String) :
    (l.onCut cmd cause).Resumed cmd (input :: inputs) := by
  have hends : EndsSettled (input :: inputs) :=
    ⟨input, inputs, rfl, hcut, by rw [← h.lastState]; exact hsettled⟩
  have hreported (error : A2AError) : ¬ EndsReported (input :: inputs) error :=
    not_endsReported_of_isCut hcut
  rw [SubscribeLoop.onCut, if_pos hsettled]
  cases hdestroying : cmd.destroying with
  | ok _ =>
      apply h.leave (event?_of_isCut hcut)
      · simp
      · simp [hends, hdestroying]
      · simp [hreported, hdestroying]
      · simp
  | error error =>
      apply h.leave (event?_of_isCut hcut)
      · simp
      · simp [hdestroying]
      · simp [hends, hreported, hdestroying]
      · simp

/-- What an event of the stream leaves of a loop that it ends. -/
theorem SubscribeLoop.onEvent_returned {printing saving : Except String Unit}
    (hphase : l.phase = .reading)
    (hclosed : (l.onEvent event printing saving).hasReturned = true) :
    ∃ reason printed, l.onEvent event printing saving =
        { l with
          lastState := (streamResponseState event).or l.lastState
          firstEvent := false
          printed := printed
          phase := .returned (.error (.output reason))
          destroyed := l.destroyed + 1 } ∧
      (printing = .error reason ∧ printed = l.printed ∨
        saving = .error reason ∧
          printed = if l.unchanged event then l.printed else l.printed ++ [event]) := by
  unfold onEvent at hclosed ⊢
  cases hunchanged : l.unchanged event with
  | true =>
      simp only [hunchanged, if_true] at hclosed ⊢
      cases saving with
      | error reason => exact ⟨reason, l.printed, rfl, .inr ⟨rfl, rfl⟩⟩
      | ok _ => simp [saveOrDestroy, hasReturned, hphase] at hclosed
  | false =>
      simp only [hunchanged, Bool.false_eq_true, if_false] at hclosed ⊢
      cases printing with
      | error reason => exact ⟨reason, l.printed, rfl, .inl ⟨rfl, rfl⟩⟩
      | ok _ =>
          cases saving with
          | error reason => exact ⟨reason, l.printed ++ [event], rfl, .inr ⟨rfl, rfl⟩⟩
          | ok _ => simp [printOrDestroy, hasReturned, hphase] at hclosed

/-- An event whose printing or saving fails. -/
theorem SubscribeLoop.Tracks.failed (h : l.Tracks cmd inputs) (hphase : l.phase = .reading)
    {printing saving : Except String Unit}
    (hclosed : (l.onEvent event printing saving).hasReturned = true) :
    (l.onEvent event printing saving).Resumed cmd (.event event printing saving :: inputs) := by
  have hshown := toPrint_event inputs event printing saving
  have hcut : (SubscribeInput.event event printing saving).isCut = false := rfl
  have hreported (error : A2AError) :
      ¬ EndsReported (.event event printing saving :: inputs) error :=
    not_endsReported (by simp)
  obtain ⟨reason, printed, hl, hreason⟩ := onEvent_returned hphase hclosed
  rw [h.unchanged_eq hphase event, h.printed, ← hshown] at hreason
  rw [hl]
  exact {
    destroyed := by
      show l.destroyed + 1 = 1
      rw [h.destroyed]
    delivered := fun hno => absurd rfl (hno reason)
    output := fun reason' hreturned => by
      obtain rfl : reason = reason' := by simpa using hreturned
      exact ⟨event, printing, saving, inputs, rfl, h.saved, hreason⟩
    ok := by simp [not_endsSettled hcut]
    a2a := fun error => by simp [not_endsSettled hcut, hreported]
    timeout := fun _ _ hreturned => by simp at hreturned }

/-- A cut that the loop ends with found the task settled. -/
theorem SubscribeLoop.onCut_closed {cause : String}
    (hclosed : (l.onCut cmd cause).hasReturned = true) : l.lastState.any isSettled = true := by
  by_contra hsettled
  rw [onCut, if_neg hsettled] at hclosed
  cases hd : l.outageDeadline <;> simp [hd, hasReturned] at hclosed

/-- A cut that the loop goes on from left the task unsettled. -/
theorem SubscribeLoop.onCut_unsettled {cause : String}
    (hopen : (l.onCut cmd cause).hasReturned = false) : l.lastState.any isSettled = false := by
  by_contra hsettled
  rw [onCut, if_pos (Bool.eq_true_of_not_eq_false hsettled)] at hopen
  cases hd : cmd.destroying <;> simp [hd, SubscribeLoop.leave, hasReturned] at hopen

/-- **One input**, whether the loop goes on or returns. -/
theorem SubscribeLoop.Tracks.resumed_takes (h : l.Tracks cmd inputs) (ht : l.Takes cmd input l')
    (hcount : answered (input :: inputs) < 2 ^ 32) : l'.Resumed cmd (input :: inputs) := by
  have hgoes (hopen : l'.hasReturned = false) := h.takes ht hcount hopen
  cases ht with
  | @event event printing saving hphase =>
      cases hopen : (l.onEvent event printing saving).hasReturned with
      | true => exact h.failed hphase hopen
      | false =>
          exact (hgoes hopen).resumed hopen (not_endsSettled rfl) fun _ => not_endsReported (by simp)
  | cut hphase hcut cause =>
      cases hopen : (l.onCut cmd cause).hasReturned with
      | true => exact h.settled hcut (onCut_closed hopen) cause
      | false =>
          have hunsettled := onCut_unsettled hopen
          rw [h.lastState] at hunsettled
          refine (hgoes hopen).resumed hopen ?_ fun _ => not_endsReported_of_isCut hcut
          rintro ⟨cut, earlier, hsplit, -, hsettled⟩
          obtain ⟨rfl, rfl⟩ := List.cons.inj hsplit
          rw [hunsettled] at hsettled
          contradiction
  | @reported error hphase hreported =>
      have hcut : (SubscribeInput.error error).isCut = false := hreported
      have hends (error' : A2AError) :
          EndsReported (.error error :: inputs) error' ↔ error = error' := by
        constructor
        · rintro ⟨earlier, hsplit, -⟩
          obtain ⟨hsame, -⟩ := List.cons.inj hsplit
          exact SubscribeInput.error.inj hsame
        · rintro rfl
          exact ⟨inputs, rfl, hreported⟩
      apply h.leave rfl
      · simp
      · simp [not_endsSettled hcut]
      · simp [not_endsSettled hcut, hends]
      · simp
  | outage hphase =>
      exact (hgoes rfl).resumed rfl (not_endsSettled rfl) fun _ => not_endsReported (by simp)
  | @retry now hphase =>
      have hreported (error : A2AError) : ¬ EndsReported (.clock now :: inputs) error :=
        not_endsReported (by simp)
      have hsettled : ¬ EndsSettled (.clock now :: inputs) := not_endsSettled rfl
      unfold onRetry at hgoes ⊢
      split
      · next hover =>
          obtain ⟨deadline, hdeadline, hle⟩ := (Option.any_eq_true _ _).mp hover
          obtain ⟨start, rfl, hsince⟩ := h.outage deadline hdeadline
          apply h.leave rfl
          · simp
          · simp [hsettled]
          · simp [hsettled, hreported]
          · intro taskId timeout hreturned
            obtain ⟨rfl, rfl⟩ : cmd.taskId = taskId ∧ cmd.timeout = timeout := by
              simpa using hreturned
            exact ⟨rfl, rfl, now, inputs, start, rfl, hsince, of_decide_eq_true hle⟩
      · next hover =>
          rw [if_neg hover] at hgoes
          exact (hgoes rfl).resumed rfl hsettled hreported
  | subscribed hphase =>
      exact (hgoes rfl).resumed rfl (not_endsSettled rfl) fun _ => not_endsReported (by simp)
  | refused hphase =>
      exact (hgoes rfl).resumed rfl (not_endsSettled rfl) fun _ => not_endsReported (by simp)

/-- A loop that has returned takes no input. -/
theorem SubscribeLoop.hasReturned_of_next (hn : l.next cmd input = some l') :
    l.hasReturned = false := by
  unfold hasReturned
  split
  · next hphase =>
      simp [SubscribeLoop.next, hphase] at hn
  · rfl

/-- **Any script** in which the attempts do not wrap around: what the loop has
printed, saved and returned. -/
theorem subscribeWithResumption_resumed {cmd : SubscribeCommand}
    {tr : List (SubscribeLoop × SubscribeInput)} {l : SubscribeLoop}
    (hr : (subscribeWithResumption cmd).Run .start tr l)
    (hcount : answered (tr.map (·.2)) < 2 ^ 32) :
    l.Resumed cmd (tr.map (·.2)).reverse := by
  have htracks : answered (tr.map (·.2)) < 2 ^ 32 →
      (l.hasReturned = false → l.Tracks cmd (tr.map (·.2)).reverse) ∧
        l.Resumed cmd (tr.map (·.2)).reverse := by
    apply hr.invariant (I := fun tr l => answered (tr.map (·.2)) < 2 ^ 32 →
      (l.hasReturned = false → l.Tracks cmd (tr.map (·.2)).reverse) ∧
        l.Resumed cmd (tr.map (·.2)).reverse)
    · intro _
      have hstart := tracks_start cmd
      refine ⟨fun _ => hstart, hstart.resumed rfl ?_ ?_⟩
      · rintro ⟨_, _, hsplit, _⟩
        contradiction
      · rintro _ ⟨_, hsplit, _⟩
        contradiction
    · intro tr l input l' hearlier hn hcount
      rw [List.map_append, List.map_singleton] at hcount ⊢
      have hcount' : answered (input :: (tr.map (·.2)).reverse) < 2 ^ 32 := by
        have hreverse : input :: (tr.map (·.2)).reverse = (tr.map (·.2) ++ [input]).reverse := by
          rw [List.reverse_append, List.reverse_singleton, List.singleton_append]
        rw [hreverse, answered, List.countP_reverse]
        exact hcount
      have hbefore : answered (tr.map (·.2)) < 2 ^ 32 := by
        rw [answered, List.countP_append] at hcount
        exact Nat.lt_of_le_of_lt (Nat.le_add_right _ _) hcount
      have hopen := (hearlier hbefore).1 (SubscribeLoop.hasReturned_of_next hn)
      have ht := SubscribeLoop.takes_of_next hn
      rw [List.reverse_append, List.reverse_singleton]
      exact ⟨hopen.takes ht hcount', hopen.resumed_takes ht hcount'⟩
  exact (htracks hcount).2

/-! ## what an agent reports -/

/-- The item arrives as no connection failure, if it is an error whose text
is read. -/
def SseWriter.ArrivesReported (C : Codec) (w : SseWriter) (i i' : SseItem) : Prop :=
  ∀ error, i = .error error → w.Fits C i →
    ∃ error', i' = .error error' ∧ isConnectionFailure error' = false

theorem Reported.arrivesReported {C : Codec} {w : SseWriter} {i i' : SseItem}
    (h : Reported C w i i') : w.ArrivesReported C i i' := by
  intro error herror hfits
  cases h with
  | event => contradiction
  | @error err i' htold =>
      obtain ⟨err', rfl, -, hdetails⟩ := htold hfits
      refine ⟨err', rfl, ?_⟩
      have hdetails : err'.details.isNone = false := by
        rw [← Option.not_isSome, hdetails]
        rfl
      rw [isConnectionFailure, hdetails, Bool.and_false]

/-- **`task subscribe`**: over any script of fewer than 2^32 resubscribe calls,
what the command prints, saves and returns is read off its inputs, and it
destroys its client once when it returns.  What an agent reports on a stream,
over either binding, is no connection failure if `serde_json` reads it. -/
theorem subscription_resumed (cmd : SubscribeCommand) (C : Codec) :
    (∀ tr l, (subscribeWithResumption cmd).Run .start tr l →
      answered (tr.map (·.2)) < 2 ^ 32 → l.Resumed cmd (tr.map (·.2)).reverse) ∧
    ∀ (w : SseWriter) (emissions : List Emission),
      (∀ i ∈ emissions.filterMap Emission.toItem, Sends i) →
      ∃ items, List.Forall₂ (w.ArrivesReported C) (emissions.filterMap Emission.toItem) items ∧
        ∀ chunks : List (List UInt8), chunks.flatten = utf8 (w.body C 0 emissions) →
          ∀ yielded, (Reader.ofChunks chunks).Yields C.toDecoders
            (w.binding.parseEvent C.toDecoders) yielded ↔ yielded = items := by
  refine ⟨fun _ _ hr hcount => subscribeWithResumption_resumed hr hcount, ?_⟩
  intro w emissions hsends
  obtain ⟨items, hreported, hyields⟩ := streams_reported C w emissions hsends
  exact ⟨items, hreported.imp fun _ _ h => h.arrivesReported, hyields⟩

/-- A completed task, and the end of its stream. -/
def completedInputs : List SubscribeInput :=
  [.event (.task (makeTask "t" "c" .completed)) (.ok ()) (.ok ()), .ended]

theorem completedInputs_settled : EndsSettled completedInputs.reverse :=
  ⟨.ended, [.event (.task (makeTask "t" "c" .completed)) (.ok ()) (.ok ())], rfl, rfl, by decide⟩

theorem exists_completed_run (destroying : Except A2AError Unit) :
    ∃ tr l, (subscribeWithResumption ⟨"t", 5, destroying⟩).Run .start tr l ∧
      tr.map (·.2) = completedInputs := by
  have hexec : ((subscribeWithResumption ⟨"t", 5, destroying⟩).exec .start completedInputs).isSome =
      true := by
    cases destroying <;> rfl
  obtain ⟨⟨tr, l⟩, htr⟩ := Option.isSome_iff_exists.mp hexec
  exact ⟨tr, l, Machine.run_of_exec htr, Machine.actions_of_exec htr⟩

/-- A completed task, and an error that the agent reports over REST. -/
theorem subscription_resumed_completed :
    (∃ tr l, (subscribeWithResumption ⟨"t", 5, .ok ()⟩).Run .start tr l ∧
      tr.map (·.2) = completedInputs ∧ l.phase = .returned (.ok ())) ∧
    ∃ error, isConnectionFailure error = false ∧
      ∀ yielded, (Reader.ofChunks [utf8 (SseWriter.body jsonCodec
          ⟨.rest, .number 1, fun _ => "now"⟩ 0 [.item (.error (.taskNotFound "t"))])]).Yields
        jsonCodec.toDecoders (parseRestEvent jsonCodec.toDecoders) yielded ↔
          yielded = [.error error] := by
  have hsubscription := subscription_resumed ⟨"t", 5, .ok ()⟩ jsonCodec
  constructor
  · obtain ⟨tr, l, hr, hinputs⟩ := exists_completed_run (.ok ())
    have hresumed := hsubscription.1 tr l hr
    rw [hinputs] at hresumed
    exact ⟨tr, l, hr, hinputs, (hresumed (by decide)).ok.mpr ⟨completedInputs_settled, rfl⟩⟩
  · have hsends : ∀ i ∈ [Emission.item (.error (.taskNotFound "t"))].filterMap Emission.toItem,
        Sends i := by
      intro i hi
      change i ∈ [.error (.taskNotFound "t")] at hi
      rw [List.mem_singleton.mp hi]
      exact ErrorCode.table_range ErrorCode.taskNotFound (by decide)
    obtain ⟨items, hall, hyields⟩ := hsubscription.2 ⟨.rest, .number 1, fun _ => "now"⟩
      [.item (.error (.taskNotFound "t"))] hsends
    obtain ⟨i, items, harrives, hrest, rfl⟩ := List.forall₂_cons_left_iff.mp hall
    obtain rfl := List.forall₂_nil_left_iff.mp hrest
    obtain ⟨error, rfl, herror⟩ := harrives _ rfl (taskNotFound_fits _ "t")
    exact ⟨error, herror, hyields _ (List.append_nil _)⟩

/-- A settled task does not make the command succeed if its client fails to
be destroyed, and an error that nests too deep is taken for a failed
connection. -/
theorem settled_not_ok :
    (∃ tr l,
      (subscribeWithResumption ⟨"t", 5, .error (.internal "broken pipe")⟩).Run .start tr l ∧
      EndsSettled (tr.map (·.2)).reverse ∧ l.phase ≠ .returned (.ok ())) ∧
    ∃ error, isConnectionFailure error = true ∧
      ∀ yielded, (Reader.ofChunks [utf8 (SseWriter.body jsonCodec
          ⟨.jsonrpc, .number 1, fun _ => "now"⟩ 0 [.item (.error deepError)])]).Yields
        jsonCodec.toDecoders (parseJsonrpcEvent jsonCodec.toDecoders) yielded ↔
          yielded = [.error error] := by
  constructor
  · obtain ⟨tr, l, hr, hinputs⟩ := exists_completed_run (.error (.internal "broken pipe"))
    have hresumed := subscribeWithResumption_resumed hr
    rw [hinputs] at hresumed
    refine ⟨tr, l, hr, by rw [hinputs]; exact completedInputs_settled, ?_⟩
    intro hok
    have hdestroyed := ((hresumed (by decide)).ok.mp hok).2
    contradiction
  · exact ⟨.internal "SSE parse error: recursion limit exceeded", by decide, deepError_yields⟩

end A2a
