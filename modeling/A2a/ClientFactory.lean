import A2a.AgentCard
import A2a.TaskStore
import Mathlib.Order.WithBot

/-!
# A2a.ClientFactory

Which of an agent's interfaces a client connects to
(`a2a-client/src/factory.rs`).

A factory of transports is looked up by protocol and major version.  The
candidates are tried in the order of the client's preferences, the card's own
order among equals, until one connects; `Before` is that order, and
`createFromCardSelecting_picks_first` says that this is what is connected to.
-/

namespace A2a

/-! ## stable sorting -/

section sorting

variable {α : Type} {le : α → α → Bool}

/-- **Sorting is stable**: elements of one rank stay in the order they were in. -/
theorem pairwise_mergeSort_stable (trans : ∀ a b c, le a b → le b c → le a c)
    (total : ∀ a b, le a b || le b a) {r : α → α → Prop} {l : List α} (h : l.Pairwise r) :
    (l.mergeSort le).Pairwise fun a b => le a b = true ∧ (le b a = true → r a b) := by
  induction l with
  | nil => simp
  | cons a rest ih =>
      obtain ⟨before, after, hwhole, hrest, hbefore⟩ := List.mergeSort_cons trans total a rest
      have hsorted := List.pairwise_mergeSort trans total (a :: rest)
      rw [hwhole, List.pairwise_append, List.pairwise_cons] at hsorted
      have hmem : ∀ b ∈ before ++ after, b ∈ rest := by
        intro b hb
        rw [← hrest, List.mem_mergeSort] at hb
        exact hb
      rw [List.pairwise_cons] at h
      have hstable := ih h.2
      rw [hrest, List.pairwise_append] at hstable
      rw [hwhole, List.pairwise_append, List.pairwise_cons]
      refine ⟨hstable.1, ⟨?_, hstable.2.1⟩, ?_⟩
      · intro c hc
        exact ⟨hsorted.2.1.1 c hc, fun _ => h.1 c (hmem c (List.mem_append_right _ hc))⟩
      · intro b hb c hc
        rw [List.mem_cons] at hc
        rcases hc with rfl | hc
        · -- what went before the new head is of a lower rank
          have hlower : le c b = false := by simpa using hbefore b hb
          exact ⟨hsorted.2.2 b hb c List.mem_cons_self, fun hle => by simp [hlower] at hle⟩
        · exact hstable.2.2 b hb c hc

end sorting

/-! ## clients -/

/-- What transport factories are looked up by. -/
structure TransportKey where
  protocol : String
  majorVersion : Nat
  deriving DecidableEq

/-- The major version a text begins with, 1 if it begins with none. -/
def majorVersionOf (version : String) : Nat :=
  (((version.toList.splitOn '.').head?.map String.ofList).bind parseUsize).getD 1

/-- **The major version** is the number before the first dot, 1 where there is
none that can be read. -/
theorem majorVersionOf_eq {major rest : List Char} (hmajor : '.' ∉ major)
    (hrest : rest = [] ∨ rest.head? = some '.') :
    majorVersionOf (String.ofList (major ++ rest)) = (parseUsize (String.ofList major)).getD 1 := by
  have hbefore : ∀ c ∈ major, (!(c == '.')) = true := by
    intro c hc
    rw [Bool.not_eq_true', beq_eq_false_iff_ne]
    rintro rfl
    exact hmajor hc
  have hnone : rest.takeWhile (fun c => !(c == '.')) = [] := by
    obtain rfl | hdot := hrest
    · rfl
    · obtain ⟨tail, rfl⟩ := List.head?_eq_some_iff.mp hdot
      rfl
  have htake : (major ++ rest).takeWhile (fun c => !(c == '.')) = major := by
    rw [List.takeWhile_append_of_pos hbefore, hnone, List.append_nil]
  rw [majorVersionOf, String.toList_ofList, head?_splitOn, htake]
  rfl

/-- The major version of a version that begins with a number. -/
theorem majorVersionOf_toString {n : Nat} (hn : n < 2 ^ 64) {rest : List Char}
    (hrest : rest = [] ∨ rest.head? = some '.') :
    majorVersionOf (toString n ++ String.ofList rest) = n := by
  have hdigits : (toString n).toList = Nat.toDigits 10 n := by
    rw [Nat.toString_eq_repr, Nat.toList_repr]
  have hmajor : '.' ∉ Nat.toDigits 10 n := by
    intro hdot
    have hdigit := Nat.isDigit_of_mem_toDigits (by decide) (by decide) hdot
    contradiction
  have hsplit : toString n ++ String.ofList rest = String.ofList (Nat.toDigits 10 n ++ rest) := by
    rw [String.ofList_append, ← hdigits, String.ofList_toList]
  rw [hsplit, majorVersionOf_eq hmajor hrest, ← hdigits, String.ofList_toList,
    parseUsize_toString hn]
  rfl

def TransportKey.fromInterface (iface : AgentInterface) : TransportKey :=
  ⟨iface.protocolBinding, majorVersionOf iface.protocolVersion⟩

def TransportKey.fromProtocol (protocol version : String) : TransportKey :=
  ⟨protocol, majorVersionOf version⟩

/-- A client over one transport. -/
structure A2AClient (T I : Type) where
  transport : T
  interceptors : List I
  defaultParams : ServiceParams
  tenant : Option String

/-- `A2AClient::new`. -/
def A2AClient.new {T I : Type} (transport : T) : A2AClient T I where
  transport := transport
  interceptors := []
  defaultParams := Finmap.singleton "A2A-Version" [version]
  tenant := none

/-- Factories of transports, and how a client made with one is set up. -/
structure A2AClientFactory (F I : Type) where
  factories : Finmap fun _ : TransportKey => F
  preferredBindings : List String
  interceptors : List I
  /-- the length of a vector is a `usize` -/
  preferred_lt : preferredBindings.length < 2 ^ 64

/-- An interface a factory is registered for.  Its position in the card tells
it apart from another like it. -/
structure Candidate (F : Type) where
  priority : Nat
  position : Nat
  iface : AgentInterface
  factory : F

/-- What came of a selection, and the candidates that were tried on the way. -/
structure Selection (F T I : Type) where
  result : Except A2AError (A2AClient T I × AgentInterface)
  tried : List (Candidate F)

namespace A2AClientFactory

variable {F T I : Type} (self : A2AClientFactory F I)

/-- `register`, over the factories there are. -/
def register (factories : Finmap fun _ : TransportKey => F) (protocol : String) (factory : F) :
    Finmap fun _ : TransportKey => F :=
  factories.insert (TransportKey.fromProtocol protocol version) factory

/-- Where a binding is first preferred, `usize::MAX` if nowhere. -/
def priority (binding : String) : Nat :=
  (self.preferredBindings.findIdx? fun b => b = binding).getD (2 ^ 64 - 1)

/-- The candidate an interface is, if a factory is registered for it. -/
def candidate (entry : AgentInterface × Nat) : Option (Candidate F) :=
  (self.factories.lookup (TransportKey.fromInterface entry.1)).map fun factory =>
    ⟨self.priority entry.1.protocolBinding, entry.2, entry.1, factory⟩

def candidates (card : AgentCard) : List (Candidate F) :=
  card.supportedInterfaces.zipIdx.filterMap self.candidate

/-- The client of a transport: a tenant that is not empty goes with it. -/
def client (transport : T) (iface : AgentInterface) : A2AClient T I :=
  let client := { (A2AClient.new transport : A2AClient T I) with interceptors := self.interceptors }
  match iface.tenant.filter fun tenant => tenant ≠ "" with
  | some tenant => { client with tenant := some tenant }
  | none => client

/-- The candidates one after another until one connects.  `create` stands for
the factories' own work; it may answer differently for each candidate. -/
def tryCandidates (create : Candidate F → Except A2AError T) (lastErr : Option A2AError) :
    List (Candidate F) → Selection F T I
  | [] => ⟨.error (lastErr.getD (.internal "failed to create transport")), []⟩
  | candidate :: rest =>
      match create candidate with
      | .ok transport =>
          ⟨.ok (self.client transport candidate.iface, candidate.iface), [candidate]⟩
      | .error e =>
          let later := tryCandidates create (some e) rest
          { later with tried := candidate :: later.tried }

def createFromCardSelecting (create : Candidate F → Except A2AError T) (card : AgentCard) :
    Selection F T I :=
  let candidates := self.candidates card
  if candidates.isEmpty then
    ⟨.error (.unsupportedOperation "no compatible transport found for agent card interfaces"), []⟩
  else
    self.tryCandidates create none
      (candidates.mergeSort fun a b => decide (a.priority ≤ b.priority))

/-! ## the order -/

/-- The rank of a binding among the preferences: a binding that is not listed
ranks after every one that is. -/
def rank (binding : String) : WithTop Nat :=
  match self.preferredBindings.findIdx? fun b => b = binding with
  | some index => WithTop.some index
  | none => ⊤

/-- An interface of the card, with the factory of its protocol and major version. -/
structure Fits (f : A2AClientFactory F I) (card : AgentCard) (c : Candidate F) : Prop where
  listed : card.supportedInterfaces[c.position]? = some c.iface
  registered : f.factories.lookup (TransportKey.fromInterface c.iface) = some c.factory
  priority : c.priority = f.priority c.iface.protocolBinding

/-- Preferred to another: of a lower rank, or earlier in the card at the same rank. -/
def Before (c d : Candidate F) : Prop :=
  self.rank c.iface.protocolBinding < self.rank d.iface.protocolBinding ∨
    (self.rank c.iface.protocolBinding = self.rank d.iface.protocolBinding ∧
      c.position < d.position)

/-- A listed binding's priority is its place, below the priority of one that
is not listed. -/
theorem priority_le_iff (a b : String) :
    self.priority a ≤ self.priority b ↔ self.rank a ≤ self.rank b := by
  have hlt := self.preferred_lt
  have hplace : ∀ binding index,
      (self.preferredBindings.findIdx? fun b => b = binding) = some index →
        index < self.preferredBindings.length := by
    intro binding index h
    exact (List.findIdx?_eq_some_iff_getElem.mp h).1
  unfold priority rank
  cases ha : self.preferredBindings.findIdx? fun b => b = a with
  | none =>
      cases hb : self.preferredBindings.findIdx? fun c => c = b with
      | none => simp
      | some j =>
          have hj := hplace b j hb
          simp
          omega
  | some i =>
      have hi := hplace a i ha
      cases hb : self.preferredBindings.findIdx? fun c => c = b with
      | none =>
          simp
          omega
      | some j => simp

theorem Before.asymm {c d : Candidate F} (h : self.Before c d) : ¬ self.Before d c := by
  intro hback
  rcases h with hrank | ⟨hrank, hposition⟩
  · rcases hback with hback | hback
    · exact lt_asymm hrank hback
    · exact absurd hback.1 (ne_of_gt hrank)
  · rcases hback with hback | hback
    · exact absurd hrank (ne_of_gt hback)
    · omega

/-- The candidates are the interfaces with a factory. -/
theorem mem_candidates {card : AgentCard} {c : Candidate F} :
    c ∈ self.candidates card ↔ self.Fits card c := by
  rw [candidates, List.mem_filterMap]
  constructor
  · rintro ⟨⟨iface, position⟩, hlisted, hcandidate⟩
    rw [candidate, Option.map_eq_some_iff] at hcandidate
    obtain ⟨factory, hfactory, heq⟩ := hcandidate
    rw [← heq]
    exact ⟨List.mem_zipIdx_iff_getElem?.mp hlisted, hfactory, rfl⟩
  · intro h
    refine ⟨(c.iface, c.position), List.mem_zipIdx_iff_getElem?.mpr h.listed, ?_⟩
    rw [candidate, h.registered, Option.map_some, ← h.priority]

/-- They are found in the card's order. -/
theorem pairwise_candidates (card : AgentCard) :
    (self.candidates card).Pairwise fun c d => c.position < d.position := by
  have hzip : card.supportedInterfaces.zipIdx.Pairwise fun a b => a.2 < b.2 := by
    rw [← List.pairwise_map (f := Prod.snd) (R := fun a b => a < b), List.zipIdx_map_snd]
    exact List.pairwise_lt_range'
  refine List.Pairwise.filterMap _ ?_ hzip
  intro a b hab c hc d hd
  rw [candidate, Option.map_eq_some_iff] at hc
  rw [candidate, Option.map_eq_some_iff] at hd
  obtain ⟨_, -, hc⟩ := hc
  obtain ⟨_, -, hd⟩ := hd
  rw [← hc, ← hd]
  exact hab

/-- They are tried in their order. -/
theorem pairwise_sorted (card : AgentCard) :
    ((self.candidates card).mergeSort fun a b => decide (a.priority ≤ b.priority)).Pairwise
      self.Before := by
  have htrans : ∀ a b c : Candidate F, decide (a.priority ≤ b.priority) = true →
      decide (b.priority ≤ c.priority) = true → decide (a.priority ≤ c.priority) = true := by
    intro a b c hab hbc
    rw [decide_eq_true_eq] at hab hbc ⊢
    omega
  have htotal : ∀ a b : Candidate F,
      (decide (a.priority ≤ b.priority) || decide (b.priority ≤ a.priority)) = true := by
    intro a b
    rw [Bool.or_eq_true, decide_eq_true_eq, decide_eq_true_eq]
    omega
  have hstable := pairwise_mergeSort_stable htrans htotal (self.pairwise_candidates card)
  refine hstable.imp_of_mem ?_
  intro c d hc hd hcd
  rw [List.mem_mergeSort, mem_candidates] at hc hd
  rw [decide_eq_true_eq, decide_eq_true_eq, hc.priority, hd.priority, priority_le_iff,
    priority_le_iff] at hcd
  rcases lt_or_eq_of_le hcd.1 with hlt | heq
  · exact Or.inl hlt
  · exact Or.inr ⟨heq, hcd.2 (le_of_eq heq.symm)⟩

/-! ## the tries -/

section tries

variable (create : Candidate F → Except A2AError T)

theorem tried_sublist (lastErr : Option A2AError) (l : List (Candidate F)) :
    (self.tryCandidates create lastErr l).tried.Sublist l := by
  induction l generalizing lastErr with
  | nil => exact List.Sublist.slnil
  | cons c rest ih =>
      rw [tryCandidates]
      split
      · exact List.singleton_sublist.mpr List.mem_cons_self
      · exact (ih _).cons_cons c

/-- A candidate is tried once all those before it have failed. -/
theorem mem_tried_iff (lastErr : Option A2AError) {l : List (Candidate F)}
    (h : l.Pairwise self.Before) (c : Candidate F) :
    c ∈ (self.tryCandidates create lastErr l).tried ↔
      c ∈ l ∧ ∀ d ∈ l, self.Before d c → ∃ e, create d = .error e := by
  induction l generalizing lastErr with
  | nil => simp [tryCandidates]
  | cons a rest ih =>
      rw [List.pairwise_cons] at h
      have hfirst : ∀ d ∈ a :: rest, ¬ self.Before d a := by
        intro d hd hbefore
        rw [List.mem_cons] at hd
        rcases hd with rfl | hd
        · exact hbefore.asymm _ hbefore
        · exact (h.1 d hd).asymm _ hbefore
      cases hcreate : create a with
      | ok transport =>
          simp only [tryCandidates, hcreate, List.mem_singleton]
          constructor
          · rintro rfl
            exact ⟨List.mem_cons_self, fun d hd hbefore => absurd hbefore (hfirst d hd)⟩
          · rintro ⟨hmem, hfailed⟩
            rw [List.mem_cons] at hmem
            rcases hmem with rfl | hmem
            · rfl
            · obtain ⟨e, he⟩ := hfailed a List.mem_cons_self (h.1 c hmem)
              rw [hcreate] at he
              contradiction
      | error e =>
          simp only [tryCandidates, hcreate, List.mem_cons, ih _ h.2]
          constructor
          · rintro (rfl | ⟨hmem, hfailed⟩)
            · exact ⟨Or.inl rfl, fun d hd hbefore =>
                absurd hbefore (hfirst d (List.mem_cons.mpr hd))⟩
            · refine ⟨Or.inr hmem, fun d hd hbefore => ?_⟩
              rcases hd with rfl | hd
              · exact ⟨e, hcreate⟩
              · exact hfailed d hd hbefore
          · rintro ⟨hmem, hfailed⟩
            rcases hmem with hmem | hmem
            · exact Or.inl hmem
            · exact Or.inr ⟨hmem, fun d hd => hfailed d (Or.inr hd)⟩

/-- The result is the client of the first candidate that connects. -/
theorem result_ok_iff (lastErr : Option A2AError) {l : List (Candidate F)}
    (h : l.Pairwise self.Before) (client : A2AClient T I) (iface : AgentInterface) :
    (self.tryCandidates create lastErr l).result = .ok (client, iface) ↔
      ∃ c ∈ l, ∃ transport, create c = .ok transport ∧
        (∀ d ∈ l, (∃ t, create d = .ok t) → d = c ∨ self.Before c d) ∧
        client = self.client transport c.iface ∧ iface = c.iface := by
  induction l generalizing lastErr with
  | nil => simp [tryCandidates]
  | cons a rest ih =>
      rw [List.pairwise_cons] at h
      cases hcreate : create a with
      | ok transport =>
          simp only [tryCandidates, hcreate, Except.ok.injEq, Prod.mk.injEq]
          constructor
          · rintro ⟨rfl, rfl⟩
            refine ⟨a, List.mem_cons_self, transport, hcreate, ?_, rfl, rfl⟩
            intro d hd _
            rw [List.mem_cons] at hd
            exact hd.imp id (h.1 d)
          · rintro ⟨c, hc, t, ht, hleast, rfl, rfl⟩
            have hca : c = a := by
              rw [List.mem_cons] at hc
              rcases hc with hc | hc
              · exact hc
              · rcases hleast a List.mem_cons_self ⟨transport, hcreate⟩ with heq | hbefore
                · exact heq.symm
                · exact absurd hbefore ((h.1 c hc).asymm _)
            rw [hca, hcreate] at ht
            rw [hca, Except.ok.inj ht]
            exact ⟨rfl, rfl⟩
      | error e =>
          simp only [tryCandidates, hcreate, ih _ h.2]
          constructor
          · rintro ⟨c, hc, t, ht, hleast, hclient⟩
            refine ⟨c, List.mem_cons_of_mem _ hc, t, ht, ?_, hclient⟩
            intro d hd hconnects
            rw [List.mem_cons] at hd
            rcases hd with rfl | hd
            · obtain ⟨t', ht'⟩ := hconnects
              rw [hcreate] at ht'
              contradiction
            · exact hleast d hd hconnects
          · rintro ⟨c, hc, t, ht, hleast, hclient⟩
            rw [List.mem_cons] at hc
            rcases hc with rfl | hc
            · rw [hcreate] at ht
              contradiction
            · exact ⟨c, hc, t, ht, fun d hd => hleast d (List.mem_cons_of_mem _ hd), hclient⟩

/-- The result is an error if none connects. -/
theorem result_error_iff (lastErr : Option A2AError) (l : List (Candidate F)) :
    (∃ e, (self.tryCandidates create lastErr l).result = .error e) ↔
      ∀ c ∈ l, ∃ e, create c = .error e := by
  induction l generalizing lastErr with
  | nil => simp [tryCandidates]
  | cons a rest ih =>
      cases hcreate : create a with
      | ok transport => simp [tryCandidates, hcreate]
      | error e => simp [tryCandidates, hcreate, ih]

end tries

/-- Without candidates there is nothing to try; the error is another. -/
theorem createFromCardSelecting_eq (create : Candidate F → Except A2AError T) (card : AgentCard) :
    let sorted := (self.candidates card).mergeSort fun a b => decide (a.priority ≤ b.priority)
    let tries := self.tryCandidates create none sorted
    (self.createFromCardSelecting create card).tried = tries.tried ∧
      (∀ found, (self.createFromCardSelecting create card).result = .ok found ↔
        tries.result = .ok found) ∧
      ((∃ e, (self.createFromCardSelecting create card).result = .error e) ↔
        ∃ e, tries.result = .error e) := by
  intro sorted tries
  unfold createFromCardSelecting
  cases hcandidates : self.candidates card with
  | nil =>
      have hnil : tries = ⟨.error (.internal "failed to create transport"), []⟩ := by
        simp [tries, sorted, hcandidates, tryCandidates]
      simp [hnil]
  | cons c rest =>
      have hcons : tries = self.tryCandidates create none
          ((c :: rest).mergeSort fun a b => decide (a.priority ≤ b.priority)) := by
        rw [← hcandidates]
      simp [hcons]

/-- A tenant goes along if it is not empty. -/
theorem client_tenant (transport : T) (iface : AgentInterface) (tenant : String) :
    (self.client transport iface).tenant = some tenant ↔
      iface.tenant = some tenant ∧ tenant ≠ "" := by
  rw [client]
  cases hfilter : iface.tenant.filter fun tenant => tenant ≠ "" with
  | none =>
      have hnone : (A2AClient.new transport : A2AClient T I).tenant = none := rfl
      rw [Option.filter_eq_none_iff] at hfilter
      simp only [hnone]
      constructor
      · intro h
        contradiction
      · intro h
        exact absurd h.2 (by simpa using hfilter tenant h.1)
  | some found =>
      rw [Option.filter_eq_some_iff] at hfilter
      simp only [hfilter.1, Option.some.injEq]
      constructor
      · rintro rfl
        exact ⟨rfl, by simpa using hfilter.2⟩
      · intro h
        exact h.1

/-- **The first interface that connects is selected.**  The candidates are the
interfaces with a factory of their protocol and major version; each is tried
at most once, in the order of their ranks and places, and as long as none
connected; the client is that of the first that connects, with the tenant of
its interface unless it is empty; and there is none if no candidate connects. -/
theorem createFromCardSelecting_picks_first (create : Candidate F → Except A2AError T)
    (card : AgentCard) :
    let selection := self.createFromCardSelecting create card
    selection.tried.Pairwise self.Before ∧
    (∀ c, c ∈ selection.tried ↔ self.Fits card c ∧
      ∀ d, self.Fits card d → self.Before d c → ∃ e, create d = .error e) ∧
    (∀ client iface, selection.result = .ok (client, iface) ↔
      ∃ c transport, self.Fits card c ∧ create c = .ok transport ∧
        (∀ d, self.Fits card d → (∃ t, create d = .ok t) → d = c ∨ self.Before c d) ∧
        client = self.client transport c.iface ∧ iface = c.iface) ∧
    (∀ client iface, selection.result = .ok (client, iface) →
      ∀ tenant, client.tenant = some tenant ↔ iface.tenant = some tenant ∧ tenant ≠ "") ∧
    ((∃ e, selection.result = .error e) ↔
      ∀ c, self.Fits card c → ∃ e, create c = .error e) := by
  intro selection
  have hsorted := self.pairwise_sorted card
  have hmem : ∀ c, c ∈ (self.candidates card).mergeSort
      (fun a b => decide (a.priority ≤ b.priority)) ↔ self.Fits card c := by
    intro c
    rw [List.mem_mergeSort, mem_candidates]
  obtain ⟨htried, hok, herror⟩ := self.createFromCardSelecting_eq create card
  have hresult : ∀ client iface, selection.result = .ok (client, iface) ↔
      ∃ c transport, self.Fits card c ∧ create c = .ok transport ∧
        (∀ d, self.Fits card d → (∃ t, create d = .ok t) → d = c ∨ self.Before c d) ∧
        client = self.client transport c.iface ∧ iface = c.iface := by
    intro client iface
    rw [hok, self.result_ok_iff create none hsorted]
    simp only [hmem]
    constructor
    · rintro ⟨c, hc, transport, hconnects⟩
      exact ⟨c, transport, hc, hconnects⟩
    · rintro ⟨c, transport, hc, hconnects⟩
      exact ⟨c, hc, transport, hconnects⟩
  refine ⟨?_, ?_, hresult, ?_, ?_⟩
  · rw [htried]
    exact hsorted.sublist (self.tried_sublist create none _)
  · intro c
    rw [htried, self.mem_tried_iff create none hsorted]
    simp only [hmem]
  · intro client iface hselected tenant
    obtain ⟨c, transport, -, -, -, hclient, hiface⟩ := (hresult client iface).mp hselected
    rw [hclient, hiface]
    exact self.client_tenant transport c.iface tenant
  · rw [herror, self.result_error_iff create none]
    simp only [hmem]

end A2AClientFactory

end A2a
