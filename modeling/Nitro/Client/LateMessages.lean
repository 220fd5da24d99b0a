import Nitro.Protocols.DepositSteps
import Nitro.Client.PeerObjectives

/-!
# Late messages

A message whose payloads are all for objectives that have come to an end, a duplicate for instance.
`handleMessage` skips a payload only if the objective can be read and is completed.  The channel of a
completed `directfund` objective is destroyed when the ledger takes over, and then the objective cannot
be read any more; one that was rejected is updated and cranked like a running one, and `Crank` refuses.

* `Message.mem_signedStates`        the states of a message are those of its payloads;
* `Message.Identified`              every state of a message has a channel id;
* `MemStore.Present`                what an objective refers to is in the tables;
* `MemStore.exists_populate_iff`    **the objective can be read exactly then**;
* `MemStore.Ended`, `Absorbing`     completed or rejected; completed and readable;
* `Engine.handleMessage_absorbed_iff`   **when a late message is absorbed**.
-/

set_option linter.unusedSectionVars false

namespace Nitro
open Go FinMap
open Protocols (Objective Storable Kind)

/-! ## the payloads of a message -/

namespace Message
variable {cr : Crypto} {m : Message}

def stateEntries (m : Message) : List (ObjectivePayload SignedState) :=
  (m.payloads.filter fun p => decide (p.type = .signedStatePayload)).map fun p =>
    ⟨p.signedState, p.objectiveId⟩

theorem mem_stateEntries {entry : ObjectivePayload SignedState} : entry ∈ m.stateEntries ↔
    ∃ p ∈ m.payloads, p.type = .signedStatePayload ∧ entry = ⟨p.signedState, p.objectiveId⟩ := by
  unfold stateEntries
  rw [List.mem_map]
  constructor
  · intro ⟨p, hp, h⟩
    obtain ⟨hp, htype⟩ := List.mem_filter.1 hp
    exact ⟨p, hp, of_decide_eq_true htype, h.symm⟩
  · intro ⟨p, hp, htype, h⟩
    exact ⟨p, List.mem_filter.2 ⟨hp, decide_eq_true htype⟩, h.symm⟩

theorem mem_signedProposals {entry : ObjectivePayload SignedProposal} :
    entry ∈ m.signedProposals ↔ ∃ p ∈ m.payloads, p.type = .signedProposalPayload ∧
      entry = ⟨p.signedProposal, p.objectiveId⟩ := by
  unfold signedProposals sortPayloads
  rw [List.mem_insertionSort, List.mem_map]
  constructor
  · intro ⟨p, hp, h⟩
    obtain ⟨hp, htype⟩ := List.mem_filter.1 hp
    exact ⟨p, hp, of_decide_eq_true htype, h.symm⟩
  · intro ⟨p, hp, htype, h⟩
    exact ⟨p, List.mem_filter.2 ⟨hp, decide_eq_true htype⟩, h.symm⟩

theorem mem_signedStates {states : List (ObjectivePayload SignedState)}
    (h : m.signedStates cr = .ok states) {entry : ObjectivePayload SignedState} :
    entry ∈ states ↔ entry ∈ m.stateEntries := by
  unfold signedStates at h
  change (if m.stateEntries.length < 2 then _ else _) = _ at h
  by_cases hlen : m.stateEntries.length < 2
  · rw [if_pos hlen] at h
    cases h
    rfl
  · rw [if_neg hlen] at h
    obtain ⟨keyed, hkeyed, h⟩ := Res.bind_eq_ok.1 h
    cases h
    rw [List.mem_map]
    constructor
    · intro ⟨k, hk, hentry⟩
      unfold sortPayloads at hk
      rw [List.mem_insertionSort] at hk
      obtain ⟨p, hp, hpk⟩ := Res.exists_of_mem_mapM hkeyed hk
      obtain ⟨d, -, hpk⟩ := Res.bind_eq_ok.1 hpk
      cases hpk
      cases hentry
      exact hp
    · intro hmem
      obtain ⟨k, hk, hpk⟩ := Res.mem_of_mapM hkeyed hmem
      obtain ⟨d, -, hpk⟩ := Res.bind_eq_ok.1 hpk
      cases hpk
      refine ⟨⟨(entry.payload, d), entry.objectiveId⟩, ?_, rfl⟩
      unfold sortPayloads
      rw [List.mem_insertionSort]
      exact hk

/-- every state has a channel id -/
def Identified (cr : Crypto) (m : Message) : Prop :=
  ∀ entry ∈ m.stateEntries, ∃ d, entry.payload.state.channelId cr = .ok d

theorem mapM_of_forall {α β : Type} {f : α → Res β} {l : List α} (h : ∀ a ∈ l, ∃ b, f a = .ok b) :
    ∃ l', l.mapM f = .ok l' := by
  induction l with
  | nil => exact ⟨[], rfl⟩
  | cons a l ih =>
    obtain ⟨b, hb⟩ := h a List.mem_cons_self
    obtain ⟨l', hl'⟩ := ih fun a ha => h a (List.mem_cons_of_mem _ ha)
    refine ⟨b :: l', ?_⟩
    rw [List.mapM_cons, hb, Res.ok_bind, hl']
    rfl

theorem Identified.signedStates (h : Identified cr m) : ∃ states, m.signedStates cr = .ok states := by
  unfold Message.signedStates
  change ∃ states, (if m.stateEntries.length < 2 then _ else _) = _
  by_cases hlen : m.stateEntries.length < 2
  · rw [if_pos hlen]
    exact ⟨_, rfl⟩
  · rw [if_neg hlen]
    obtain ⟨keyed, hkeyed⟩ := mapM_of_forall (l := m.stateEntries)
      (f := fun p => do
        let channelId ← p.payload.state.channelId cr
        (.ok ⟨(p.payload, channelId), p.objectiveId⟩ :
          Res (ObjectivePayload (SignedState × Destination)))) fun p hp => by
        obtain ⟨d, hd⟩ := h p hp
        exact ⟨_, by rw [hd]; rfl⟩
    exact ⟨_, Res.bind_eq_ok.2 ⟨keyed, hkeyed, rfl⟩⟩

theorem summarize_ok_iff : (∃ ids, m.summarize cr = .ok ids) ↔ Identified cr m := by
  constructor
  · intro ⟨ids, h⟩ entry hentry
    obtain ⟨states, hstates, h⟩ := Res.bind_eq_ok.1 h
    obtain ⟨d, -, hd⟩ := Res.mem_of_mapM h ((mem_signedStates hstates).2 hentry)
    exact ⟨d, hd⟩
  · intro h
    obtain ⟨states, hstates⟩ := h.signedStates
    obtain ⟨ids, hids⟩ := mapM_of_forall fun p hp => h p ((mem_signedStates hstates).1 hp)
    exact ⟨ids, Res.bind_eq_ok.2 ⟨states, hstates, hids⟩⟩

end Message

/-! ## reading an objective -/

namespace MemStore
variable {cr : Crypto} {ms : MemStore} {o : Objective} {id : ObjectiveId}

/-- what the objective refers to is in the tables; nothing is looked up for the zero id -/
structure Present (ms : MemStore) (o : Objective) : Prop where
  channels : ∀ c ∈ o.relatedChannels, c.id ∈ ms.channels
  ledgers : ∀ l ∈ o.relatedLedgers, l.id ≠ 0 → l.id ∈ ms.consensusChannels

theorem exists_getChannelData {d : Destination} :
    (∃ c, ms.getChannelData d = .ok c) ↔ d ∈ ms.channels := by
  constructor
  · intro ⟨c, hc⟩
    exact Finmap.mem_of_lookup_eq_some (getChannelData_eq_ok.1 hc)
  · intro h
    obtain ⟨c, hc⟩ := Finmap.mem_iff.1 h
    exact ⟨c, getChannelData_eq_ok.2 hc⟩

theorem exists_populateLedger {side : String} {c : ConsensusChannel} :
    (∃ c', ms.populateLedger side id c = .ok c') ↔ (c.id ≠ 0 → c.id ∈ ms.consensusChannels) := by
  constructor
  · intro ⟨c', hc'⟩ h0
    rcases populateLedger_eq_ok.1 hc' with ⟨hz, -⟩ | ⟨-, hl⟩
    · exact absurd hz h0
    · exact Finmap.mem_of_lookup_eq_some hl
  · intro h
    by_cases h0 : c.id = 0
    · exact ⟨c, populateLedger_eq_ok.2 (.inl ⟨h0, rfl⟩)⟩
    · obtain ⟨c', hc'⟩ := Finmap.mem_iff.1 (h h0)
      exact ⟨c', populateLedger_eq_ok.2 (.inr ⟨h0, hc'⟩)⟩

theorem relatedChannels_virtualDefund (o : VirtualDefund.Objective) :
    (Objective.virtualDefund o).relatedChannels = [] := by
  obtain ⟨_, _, _, _, _, left, right, _⟩ := o
  cases left <;> cases right <;> rfl

/-- a connection of virtual funding, which the JSON leaves out if its ledger has the zero id -/
theorem exists_populate_connection {side : String} {c : Option VirtualFund.Connection} :
    (∃ c', populatePointer (fun c : VirtualFund.Connection => do
        let ledger ← ms.populateLedger side id c.channel
        (.ok { c with channel := ledger } : Res VirtualFund.Connection))
      (VirtualFund.Connection.skeleton c) = .ok c') ↔
    ∀ l ∈ (c.map VirtualFund.Connection.channel).toList, l.id ≠ 0 → l.id ∈ ms.consensusChannels := by
  cases c with
  | none => simp [VirtualFund.Connection.skeleton, populatePointer]
  | some a =>
    have hmem : (∀ l ∈ ((some a).map VirtualFund.Connection.channel).toList,
        l.id ≠ 0 → l.id ∈ ms.consensusChannels) ↔
        (a.channel.id ≠ 0 → a.channel.id ∈ ms.consensusChannels) := by simp
    rw [hmem]
    by_cases h0 : a.channel.id = 0
    · have hnone : VirtualFund.Connection.skeleton (some a) = none := if_pos h0
      rw [hnone]
      constructor
      · intro _ h
        exact absurd h0 h
      · intro _
        exact ⟨none, rfl⟩
    · have hsome : VirtualFund.Connection.skeleton (some a) =
          some { a with channel := ConsensusChannel.blank a.channel.id } := if_neg h0
      have hledger : (∃ c', ms.populateLedger side id (ConsensusChannel.blank a.channel.id) = .ok c') ↔
          (a.channel.id ≠ 0 → a.channel.id ∈ ms.consensusChannels) := exists_populateLedger
      rw [hsome, ← hledger]
      constructor
      · rintro ⟨c', h⟩
        rcases populatePointer_eq_ok.1 h with ⟨h, -⟩ | ⟨b, b', hb, -, h⟩
        · cases h
        · cases hb
          obtain ⟨ledger, hledger, -⟩ := Res.bind_eq_ok.1 h
          exact ⟨ledger, hledger⟩
      · rintro ⟨ledger, hledger⟩
        refine ⟨some { a with channel := ledger }, populatePointer_eq_ok.2 (.inr ⟨_, _, rfl, rfl, ?_⟩)⟩
        exact Res.bind_eq_ok.2 ⟨ledger, hledger, rfl⟩

theorem exists_populate_getD {side : String} {c : Option ConsensusChannel} :
    (∃ c', populatePointer (ms.populateLedger side id) (some (c.getD (ConsensusChannel.blank 0))) =
      .ok c') ↔ ∀ l ∈ c.toList, l.id ≠ 0 → l.id ∈ ms.consensusChannels := by
  have hpointer : (∃ c', populatePointer (ms.populateLedger side id)
      (some (c.getD (ConsensusChannel.blank 0))) = .ok c') ↔
      ∃ c', ms.populateLedger side id (c.getD (ConsensusChannel.blank 0)) = .ok c' := by
    constructor
    · intro ⟨c', h⟩
      obtain ⟨a, ha, -⟩ := Res.bind_eq_ok.1 h
      exact ⟨a, ha⟩
    · intro ⟨a, ha⟩
      exact ⟨some a, Res.bind_eq_ok.2 ⟨a, ha, rfl⟩⟩
  rw [hpointer, exists_populateLedger]
  cases c with
  | none =>
    constructor
    · intro _ l hl
      cases hl
    · intro _ h
      exact absurd rfl h
  | some a =>
    show (a.id ≠ 0 → a.id ∈ ms.consensusChannels) ↔ _
    simp

theorem present_channel {c : Channel} (hc : o.relatedChannels = [c]) (hl : o.relatedLedgers = []) :
    Present ms o ↔ c.id ∈ ms.channels := by
  constructor
  · intro h
    exact h.channels c (by rw [hc]; exact List.mem_cons_self)
  · intro h
    refine ⟨?_, ?_⟩
    · rw [hc]
      intro d hd
      rw [List.mem_singleton.1 hd]
      exact h
    · rw [hl]
      intro l hl
      cases hl

theorem ledgers_append {l r : List ConsensusChannel} (h : o.relatedLedgers = l ++ r) :
    (∀ c ∈ o.relatedLedgers, c.id ≠ 0 → c.id ∈ ms.consensusChannels) ↔
      (∀ c ∈ l, c.id ≠ 0 → c.id ∈ ms.consensusChannels) ∧
        ∀ c ∈ r, c.id ≠ 0 → c.id ∈ ms.consensusChannels := by
  rw [h]
  exact List.forall_mem_append

/-- **an objective can be read back exactly when what it refers to is in the tables** -/
theorem exists_populate_iff (hid : o.id cr = .ok id) :
    (∃ o', ms.populateChannelData cr o.skeleton = .ok o') ↔ Present ms o := by
  unfold populateChannelData
  rw [Objective.skeleton_id, hid]
  simp only [Res.ok_bind]
  cases o with
  | directFund o =>
    rw [present_channel rfl rfl, ← exists_getChannelData]
    constructor
    · intro ⟨o', h⟩
      obtain ⟨c, hc, -⟩ := Res.bind_eq_ok.1 h
      exact ⟨c, Res.wrap_eq_ok.1 hc⟩
    · intro ⟨c, hc⟩
      exact ⟨_, Res.bind_eq_ok.2 ⟨c, Res.wrap_eq_ok.2 hc, rfl⟩⟩
  | directDefund o =>
    rw [present_channel rfl rfl, ← exists_getChannelData]
    constructor
    · intro ⟨o', h⟩
      obtain ⟨c, hc, -⟩ := Res.bind_eq_ok.1 h
      exact ⟨c, Res.wrap_eq_ok.1 hc⟩
    · intro ⟨c, hc⟩
      exact ⟨_, Res.bind_eq_ok.2 ⟨c, Res.wrap_eq_ok.2 hc, rfl⟩⟩
  | virtualFund o =>
    constructor
    · intro ⟨o', h⟩
      obtain ⟨v, hv, h⟩ := Res.bind_eq_ok.1 h
      obtain ⟨l, hl, h⟩ := Res.bind_eq_ok.1 h
      obtain ⟨r, hr, -⟩ := Res.bind_eq_ok.1 h
      refine ⟨?_, (ledgers_append (relatedLedgers_virtualFund o)).2
        ⟨exists_populate_connection.1 ⟨l, hl⟩, exists_populate_connection.1 ⟨r, hr⟩⟩⟩
      rw [relatedChannels_virtualFund]
      intro c hc
      rw [List.mem_singleton.1 hc]
      exact exists_getChannelData.1 ⟨v, Res.wrap_eq_ok.1 hv⟩
    · intro ⟨hchannels, hledgers⟩
      rw [relatedChannels_virtualFund] at hchannels
      obtain ⟨hleft, hright⟩ := (ledgers_append (relatedLedgers_virtualFund o)).1 hledgers
      obtain ⟨v, hv⟩ := exists_getChannelData.2 (hchannels _ List.mem_cons_self)
      obtain ⟨l, hl⟩ := exists_populate_connection.2 hleft
      obtain ⟨r, hr⟩ := exists_populate_connection.2 hright
      exact ⟨_, Res.bind_eq_ok.2 ⟨v, Res.wrap_eq_ok.2 hv,
        Res.bind_eq_ok.2 ⟨l, hl, Res.bind_eq_ok.2 ⟨r, hr, rfl⟩⟩⟩⟩
  | virtualDefund o =>
    constructor
    · intro ⟨o', h⟩
      obtain ⟨l, hl, h⟩ := Res.bind_eq_ok.1 h
      obtain ⟨r, hr, -⟩ := Res.bind_eq_ok.1 h
      refine ⟨?_, (ledgers_append (relatedLedgers_virtualDefund o)).2
        ⟨exists_populate_getD.1 ⟨l, hl⟩, exists_populate_getD.1 ⟨r, hr⟩⟩⟩
      rw [relatedChannels_virtualDefund]
      intro c hc
      cases hc
    · intro ⟨_, hledgers⟩
      obtain ⟨hleft, hright⟩ := (ledgers_append (relatedLedgers_virtualDefund o)).1 hledgers
      obtain ⟨l, hl⟩ := exists_populate_getD.2 hleft
      obtain ⟨r, hr⟩ := exists_populate_getD.2 hright
      exact ⟨_, Res.bind_eq_ok.2 ⟨l, hl, Res.bind_eq_ok.2 ⟨r, hr, rfl⟩⟩⟩

theorem populate_status {o' : Objective} (hid : o.id cr = .ok id)
    (h : ms.populateChannelData cr o.skeleton = .ok o') : o'.getStatus = o.getStatus := by
  unfold populateChannelData at h
  rw [Objective.skeleton_id, hid] at h
  simp only [Res.ok_bind] at h
  cases o with
  | directFund o =>
    obtain ⟨c, -, h⟩ := Res.bind_eq_ok.1 h
    cases h
    rfl
  | directDefund o =>
    obtain ⟨c, -, h⟩ := Res.bind_eq_ok.1 h
    cases h
    rfl
  | virtualFund o =>
    obtain ⟨v, -, h⟩ := Res.bind_eq_ok.1 h
    obtain ⟨l, -, h⟩ := Res.bind_eq_ok.1 h
    obtain ⟨r, -, h⟩ := Res.bind_eq_ok.1 h
    cases h
    rfl
  | virtualDefund o =>
    obtain ⟨l, -, h⟩ := Res.bind_eq_ok.1 h
    obtain ⟨r, -, h⟩ := Res.bind_eq_ok.1 h
    cases h
    rfl

/-! ## the error for an id that is not stored -/

section found
variable {α β : Type}

/-- if the call fails, then not for want of the objective -/
def Found (x : Res α) : Prop := ∀ e, x = .error (.err e) → e.is errNoSuchObjective = false

theorem found_ok (a : α) : Found (.ok a : Res α) := by
  intro e h
  cases h

theorem found_bind {x : Res α} {f : α → Res β} (hx : Found x) (hf : ∀ a, Found (f a)) :
    Found (x >>= f) := by
  intro e h
  cases x with
  | ok a => exact hf a e h
  | error e' =>
    cases h
    exact hx e rfl

theorem found_wrap {x : Res α} {text : String} (hx : Found x) : Found (x.wrap text) := by
  intro e h
  cases x with
  | ok a => cases h
  | error e' =>
    cases e' with
    | panic r => cases h
    | err inner =>
      cases h
      show (decide (Error.wrap text inner = errNoSuchObjective) || inner.is errNoSuchObjective) = false
      rw [hx inner rfl, decide_eq_false (fun h => nomatch h), Bool.or_false]

theorem found_getChannelData (d : Destination) : Found (ms.getChannelData d) := by
  intro e h
  unfold getChannelData at h
  cases hl : ms.channels.lookup d with
  | none =>
    rw [hl] at h
    cases h
    decide
  | some c =>
    rw [hl] at h
    cases h

theorem found_populateLedger (side : String) (c : ConsensusChannel) :
    Found (ms.populateLedger side id c) := by
  unfold populateLedger
  by_cases h0 : c.id = 0
  · rw [if_pos h0]
    exact found_ok c
  · rw [if_neg h0]
    refine found_wrap fun e h => ?_
    unfold getConsensusChannelById at h
    cases hl : ms.consensusChannels.lookup c.id with
    | none =>
      rw [hl] at h
      cases h
      decide
    | some c =>
      rw [hl] at h
      cases h

theorem found_populatePointer {f : α → Res α} (hf : ∀ a, Found (f a)) (x : Option α) :
    Found (populatePointer f x) := by
  cases x with
  | none => exact found_ok none
  | some a => exact found_bind (hf a) fun a => found_ok (some a)

theorem found_populate (hid : o.id cr = .ok id) : Found (ms.populateChannelData cr o.skeleton) := by
  unfold populateChannelData
  rw [Objective.skeleton_id, hid]
  simp only [Res.ok_bind]
  cases o with
  | directFund o => exact found_bind (found_wrap (found_getChannelData _)) fun c => found_ok _
  | directDefund o => exact found_bind (found_wrap (found_getChannelData _)) fun c => found_ok _
  | virtualFund o =>
    have hconnection (side : String) (c : VirtualFund.Connection) : Found (do
        let ledger ← ms.populateLedger side id c.channel
        (.ok { c with channel := ledger } : Res VirtualFund.Connection)) :=
      found_bind (found_populateLedger side c.channel) fun l => found_ok _
    refine found_bind (found_wrap (found_getChannelData _)) fun v => ?_
    refine found_bind (found_populatePointer (hconnection "left") _) fun l => ?_
    exact found_bind (found_populatePointer (hconnection "right") _) fun r => found_ok _
  | virtualDefund o =>
    refine found_bind (found_populatePointer (found_populateLedger "left") _) fun l => ?_
    exact found_bind (found_populatePointer (found_populateLedger "right") _) fun r => found_ok _

end found

/-! ## objectives that have come to an end -/

/-- the objective is stored, and it is completed or rejected -/
def Ended (cr : Crypto) (ms : MemStore) (id : ObjectiveId) : Prop :=
  ∃ o : Objective, o.id cr = .ok id ∧ ms.objectives.lookup id = some o.marshalJSON ∧
    (o.getStatus = .completed ∨ o.getStatus = .rejected)

/-- the objective is stored and completed, and what it refers to is in the tables -/
def Absorbing (cr : Crypto) (ms : MemStore) (id : ObjectiveId) : Prop :=
  ∃ o : Objective, o.id cr = .ok id ∧ ms.objectives.lookup id = some o.marshalJSON ∧
    o.getStatus = .completed ∧ Present ms o

theorem absorbing_iff (h : Ended cr ms id) : Absorbing cr ms id ↔
    ∃ o, ms.getObjectiveById cr id = .ok o ∧ o.getStatus = .completed := by
  constructor
  · intro ⟨o, hid, hstored, hstatus, hpresent⟩
    obtain ⟨o', ho'⟩ := (exists_populate_iff hid).2 hpresent
    refine ⟨o', ?_, (populate_status hid ho').trans hstatus⟩
    rw [getObjectiveById_eq hid hstored, Res.wrap_eq_ok]
    exact ho'
  · intro ⟨o', hget, hstatus⟩
    obtain ⟨o, hid, hstored, -⟩ := h
    rw [getObjectiveById_eq hid hstored, Res.wrap_eq_ok] at hget
    refine ⟨o, hid, hstored, ?_, (exists_populate_iff hid).1 ⟨o', hget⟩⟩
    exact (populate_status hid hget).symm.trans hstatus

theorem Ended.status (h : Ended cr ms id) {o : Objective} (hget : ms.getObjectiveById cr id = .ok o) :
    o.getStatus = .completed ∨ o.getStatus = .rejected := by
  obtain ⟨o', hid, hstored, hstatus⟩ := h
  rw [getObjectiveById_eq hid hstored, Res.wrap_eq_ok] at hget
  rw [populate_status hid hget]
  exact hstatus

theorem Ended.found (h : Ended cr ms id) : Found (ms.getObjectiveById cr id) := by
  obtain ⟨o, hid, hstored, -⟩ := h
  rw [getObjectiveById_eq hid hstored]
  exact found_wrap (found_populate hid)

end MemStore

theorem getOrCreateObjective_found {cr : Crypto} {me : Address} {ro : RangeOrders} {id : ObjectiveId}
    {ss : SignedState} {ms ms' : MemStore} {o : Objective}
    (hfound : MemStore.Found (ms.getObjectiveById cr id)) :
    getOrCreateObjective cr me ro id ss ms = .ok o ms' ↔
      ms.getObjectiveById cr id = .ok o ∧ ms' = ms := by
  unfold getOrCreateObjective
  cases hget : ms.getObjectiveById cr id with
  | ok o' =>
    constructor
    · intro h
      cases h
      exact ⟨rfl, rfl⟩
    · intro ⟨h, hms⟩
      cases h
      rw [hms]
  | error f =>
    cases f with
    | panic r =>
      constructor
      · intro h
        cases h
      · intro ⟨h, _⟩
        cases h
    | err e =>
      have his : ¬ e.is errNoSuchObjective = true := by
        rw [hfound e hget]
        exact Bool.false_ne_true
      show (if e.is errNoSuchObjective = true then _ else _) = _ ↔ _
      rw [if_neg his]
      constructor
      · intro h
        cases h
      · intro ⟨h, _⟩
        cases h

/-! ## the status decides -/

theorem VirtualDefund.Objective.status_setLedger (o : VirtualDefund.Objective) (side : Side)
    (ledger : ConsensusChannel) : (o.setLedger side ledger).status = o.status := by
  cases side with
  | left => rfl
  | right => rfl

theorem VirtualDefund.Objective.status_receiveSignatures {cr : Crypto}
    {o : VirtualDefund.Objective} {incoming : List Signature} {is : List Nat}
    {d d' : VirtualDefund.Objective} (h : o.receiveSignatures cr incoming is d = .ok d') :
    d'.status = d.status := by
  induction is generalizing d with
  | nil =>
    cases h
    rfl
  | cons i is ih =>
    obtain ⟨existing, -, h⟩ := Res.bind_eq_ok.1 h
    obtain ⟨sig, -, h⟩ := Res.bind_eq_ok.1 h
    by_cases hzero : isZero sig = true
    · rw [if_pos hzero] at h
      exact ih h
    · rw [if_neg hzero] at h
      by_cases hnew : isZero existing = false
      · rw [if_pos hnew] at h
        by_cases hsame : existing.equal sig = true
        · rw [if_pos hsame] at h
          exact ih h
        · rw [if_neg hsame] at h
          cases h
      · rw [if_neg hnew] at h
        obtain ⟨_, -, h⟩ := Res.bind_eq_ok.1 h
        obtain ⟨d₁, hset, h⟩ := Res.bind_eq_ok.1 h
        rw [ih h, status_setSignature hset]

theorem VirtualDefund.Objective.status_receiveProposal {cr : Crypto} {o d : VirtualDefund.Objective}
    {side : Side} {sp : SignedProposal} (h : o.receiveProposal cr side sp = .ok d) :
    d.status = o.status := by
  unfold receiveProposal at h
  split at h
  · cases h
  · split at h
    · cases h
      exact status_setLedger ..
    · split at h
      · cases h
        exact status_setLedger ..
      · cases h
    · cases h

theorem VirtualDefund.Objective.update_status {cr : Crypto} {o d : VirtualDefund.Objective}
    {event : ObjectiveEvent} (h : o.update cr event = .ok d) : d.status = o.status := by
  obtain ⟨id, -, h⟩ := Res.bind_eq_ok.1 h
  obtain ⟨-, h⟩ := failIf_bind_eq_ok.1 h
  obtain ⟨copy, hcopy, h⟩ := Res.bind_eq_ok.1 h
  obtain ⟨next, hnext, h⟩ := Res.bind_eq_ok.1 h
  obtain rfl := clone_eq hcopy
  have hsigned : next.status = copy.status := by
    unfold updateSignatures at hnext
    split at hnext
    · cases hnext
      rfl
    · obtain ⟨_, -, hnext⟩ := Res.bind_eq_ok.1 hnext
      obtain ⟨_, -, hnext⟩ := Res.bind_eq_ok.1 hnext
      obtain ⟨-, hnext⟩ := failIf_bind_eq_ok.1 hnext
      exact status_receiveSignatures hnext
  rw [← hsigned]
  obtain ⟨vId, -, h⟩ := Res.bind_eq_ok.1 h
  split at h
  · cases h
    rfl
  · split at h
    · cases h
    · split at h
      · exact status_receiveProposal h
      · split at h
        · exact status_receiveProposal h
        · cases h

namespace Protocols.Objective
variable {cr : Crypto} {o o' : Objective}

theorem update_status {event : ObjectiveEvent} (h : o.update cr event = .ok o') :
    o'.getStatus = o.getStatus := by
  cases o with
  | directFund o =>
    obtain ⟨d, hd, rfl⟩ := Res.map_eq_ok.1 h
    obtain ⟨-, hd⟩ := failIf_bind_eq_ok.1 hd
    obtain ⟨copy, hcopy, hd⟩ := Res.bind_eq_ok.1 hd
    obtain ⟨c, -, hd⟩ := Res.bind_eq_ok.1 hd
    obtain ⟨_, -, rfl⟩ := DirectFund.Objective.clone_ok hcopy
    cases hd
    rfl
  | directDefund o =>
    obtain ⟨d, hd, rfl⟩ := Res.map_eq_ok.1 h
    obtain ⟨-, hd⟩ := failIf_bind_eq_ok.1 hd
    obtain ⟨-, hd⟩ := failIf_bind_eq_ok.1 hd
    obtain ⟨-, hd⟩ := failIf_bind_eq_ok.1 hd
    obtain ⟨-, hd⟩ := failIf_bind_eq_ok.1 hd
    obtain ⟨copy, hcopy, hd⟩ := Res.bind_eq_ok.1 hd
    obtain ⟨c, -, hd⟩ := Res.bind_eq_ok.1 hd
    obtain ⟨_, -, rfl⟩ := DirectDefund.Objective.clone_ok hcopy
    cases hd
    rfl
  | virtualFund o =>
    obtain ⟨d, hd, rfl⟩ := Res.map_eq_ok.1 h
    exact VirtualFund.Objective.update_status hd
  | virtualDefund o =>
    obtain ⟨d, hd, rfl⟩ := Res.map_eq_ok.1 h
    exact VirtualDefund.Objective.update_status hd

/-- **only an approved objective is cranked** -/
theorem crank_refused {loops : Side → VirtualFund.Objective.LoopOrders} {sk : Bytes} {r : Cranked}
    (h : o.crank cr loops sk = .ok r) (hstatus : o.getStatus ≠ .approved) : r.err ≠ none := by
  have hrefused {α : Type} {p : Prop} [Decidable p] {a : Res α} {b c : α} (hp : p)
      (h : (if p then .ok b else a) = .ok c) : c = b := by
    rw [if_pos hp] at h
    exact (Except.ok.inj h).symm
  cases o with
  | directFund o =>
    obtain ⟨c, hc, rfl⟩ := Res.map_eq_ok.1 h
    obtain ⟨copy, hcopy, hc⟩ := Res.bind_eq_ok.1 hc
    obtain ⟨d, -, rfl⟩ := DirectFund.Objective.clone_ok hcopy
    rw [hrefused hstatus hc]
    exact fun h => nomatch h
  | directDefund o =>
    obtain ⟨c, hc, rfl⟩ := Res.map_eq_ok.1 h
    obtain ⟨copy, hcopy, hc⟩ := Res.bind_eq_ok.1 hc
    obtain ⟨d, -, rfl⟩ := DirectDefund.Objective.clone_ok hcopy
    rw [hrefused hstatus hc]
    exact fun h => nomatch h
  | virtualFund o =>
    obtain ⟨c, hc, rfl⟩ := Res.map_eq_ok.1 h
    obtain ⟨copy, hcopy, hc⟩ := Res.bind_eq_ok.1 hc
    obtain ⟨-, hsame, -⟩ := VirtualFund.Objective.clone_ok hcopy
    have hcopied : copy.status ≠ .approved := by
      rw [hsame]
      exact hstatus
    rw [hrefused hcopied hc]
    exact fun h => nomatch h
  | virtualDefund o =>
    obtain ⟨c, hc, rfl⟩ := Res.map_eq_ok.1 h
    obtain ⟨copy, hcopy, hc⟩ := Res.bind_eq_ok.1 hc
    obtain rfl := VirtualDefund.Objective.clone_eq hcopy
    rw [hrefused hstatus hc]
    exact fun h => nomatch h

end Protocols.Objective

/-! ## the handler -/

namespace Engine
variable {cr : Crypto} {client : Client} {e e' : Engine}

open MemStore (Ended Absorbing)

theorem attemptProgress_refused {loops : Side → VirtualFund.Objective.LoopOrders} {o : Objective}
    {r : List Objective} (hstatus : o.getStatus ≠ .approved) :
    attemptProgress cr client loops o e ≠ .ok r e' := by
  intro h
  obtain ⟨cranked, hcranked, h⟩ := Meth.lift_bind_eq_ok.1 h
  have herr := Objective.crank_refused hcranked hstatus
  cases hc : cranked.err with
  | none => exact herr hc
  | some err =>
    rw [hc] at h
    cases h

/-- an objective that has come to an end takes an event only if it is completed -/
theorem progressWith_ended {loops : Side → VirtualFund.Objective.LoopOrders} {o : Objective}
    {event : ObjectiveEvent} {r : List Objective}
    (hstatus : o.getStatus = .completed ∨ o.getStatus = .rejected) :
    progressWith cr client loops o event e = .ok r e' ↔
      o.getStatus = .completed ∧ r = [] ∧ e' = e := by
  unfold progressWith
  by_cases hc : o.getStatus = .completed
  · rw [if_pos hc]
    constructor
    · intro h
      cases h
      exact ⟨hc, rfl, rfl⟩
    · intro ⟨_, hr, he⟩
      rw [hr, he]
      rfl
  · rw [if_neg hc]
    constructor
    · intro h
      obtain ⟨updated, hupdated, h⟩ := Meth.lift_bind_eq_ok.1 h
      have hrejected : updated.getStatus = .rejected :=
        (Objective.update_status hupdated).trans (hstatus.resolve_left hc)
      have hne : updated.getStatus ≠ .approved := by
        rw [hrejected]
        exact fun h => nomatch h
      exact absurd h (attemptProgress_refused hne)
    · intro ⟨h, _⟩
      exact absurd h hc

theorem handleSignedState_ended {ro : RangeOrders} {entry : ObjectivePayload SignedState}
    {r : List Objective × Bool} (h : Ended cr e.store entry.objectiveId) :
    handleSignedState cr client ro entry e = .ok r e' ↔
      Absorbing cr e.store entry.objectiveId ∧ r = ([], false) ∧ e' = e := by
  have happrove {o : Objective} (ho : o.getStatus = .completed ∨ o.getStatus = .rejected) :
      approveOrReject cr client o e = .ok (o, false) e := by
    unfold approveOrReject
    rw [if_neg]
    · rfl
    · rcases ho with ho | ho
      · rw [ho]
        exact fun h => nomatch h
      · rw [ho]
        exact fun h => nomatch h
  rw [MemStore.absorbing_iff h]
  constructor
  · intro hrun
    obtain ⟨o, e₁, ho, hread⟩ := Meth.bind_eq_ok.1 hrun
    obtain ⟨ms, hms, he₁⟩ := Meth.zoom_eq_ok.1 ho
    obtain ⟨hget, hsame⟩ := (getOrCreateObjective_found h.found).1 hms
    rw [hsame] at he₁
    cases he₁
    rw [Meth.bind_ok (happrove (h.status hget))] at hread
    obtain ⟨completed, e₂, hcompleted, hend⟩ := Meth.bind_eq_ok.1 hread
    obtain ⟨hstatus, hnone, he₂⟩ := (progressWith_ended (h.status hget)).1 hcompleted
    rw [hnone, he₂] at hend
    cases hend
    exact ⟨⟨o, hget, hstatus⟩, rfl, rfl⟩
  · intro ⟨⟨o, hget, hstatus⟩, hr, he⟩
    subst hr he
    refine Meth.bind_eq_ok.2 ⟨o, e', Meth.zoom_eq_ok.2 ⟨e'.store, ?_, rfl⟩, ?_⟩
    · exact (getOrCreateObjective_found h.found).2 ⟨hget, rfl⟩
    · refine Meth.bind_eq_ok.2 ⟨(o, false), e', happrove (h.status hget), ?_⟩
      exact Meth.bind_eq_ok.2 ⟨[], e', (progressWith_ended (h.status hget)).2 ⟨hstatus, rfl, rfl⟩, rfl⟩

theorem handleSignedProposal_ended {ro : RangeOrders} {entry : ObjectivePayload SignedProposal}
    {r : List Objective} (h : Ended cr e.store entry.objectiveId) :
    handleSignedProposal cr client ro entry e = .ok r e' ↔
      Absorbing cr e.store entry.objectiveId ∧ r = [] ∧ e' = e := by
  rw [MemStore.absorbing_iff h]
  constructor
  · intro hrun
    obtain ⟨o, hget, hrun⟩ := Meth.lift_bind_eq_ok.1 (Meth.get_bind_eq_ok.1 hrun)
    obtain ⟨hstatus, hr, he⟩ := (progressWith_ended (h.status hget)).1 hrun
    exact ⟨⟨o, hget, hstatus⟩, hr, he⟩
  · intro ⟨⟨o, hget, hstatus⟩, hr, he⟩
    subst hr he
    refine Meth.get_bind_eq_ok.2 (Meth.lift_bind_eq_ok.2 ⟨o, hget, ?_⟩)
    exact (progressWith_ended (h.status hget)).2 ⟨hstatus, rfl, rfl⟩

theorem handleSignedStates_ended {l : List (RangeOrders × ObjectivePayload SignedState)}
    {r : List Objective × Bool} (h : ∀ p ∈ l, Ended cr e.store p.2.objectiveId) :
    handleSignedStates cr client l e = .ok r e' ↔
      (∀ p ∈ l, Absorbing cr e.store p.2.objectiveId) ∧ r = ([], false) ∧ e' = e := by
  refine Meth.loop_idle (fun p => handleSignedState cr client p.1 p.2) rfl (fun _ _ => rfl)
    (fun l t => ?_) fun p hp _ _ => handleSignedState_ended (h p hp)
  show (handleSignedStates cr client l >>= fun r => pure ([] ++ r.1, r.2)) t = _
  rw [Meth.bind_run]
  cases handleSignedStates cr client l t <;> rfl

theorem handleSignedProposals_ended {l : List (RangeOrders × ObjectivePayload SignedProposal)}
    {r : List Objective} (h : ∀ p ∈ l, Ended cr e.store p.2.objectiveId) :
    handleSignedProposals cr client l e = .ok r e' ↔
      (∀ p ∈ l, Absorbing cr e.store p.2.objectiveId) ∧ r = [] ∧ e' = e := by
  refine Meth.loop_idle (fun p => handleSignedProposal cr client p.1 p.2) rfl (fun _ _ => rfl)
    (fun l t => ?_) fun p hp _ _ => handleSignedProposal_ended (h p hp)
  show (handleSignedProposals cr client l >>= fun more => pure ([] ++ more)) t = _
  rw [Meth.bind_run]
  cases handleSignedProposals cr client l t <;> rfl

/-- the handler returns, the store is as it was, and nothing is sent or submitted -/
def Absorbs (cr : Crypto) (client : Client) (ro : Nat → RangeOrders) (m : Message) (e : Engine) :
    Prop :=
  ∃ res e', handleMessage cr client ro m e = .ok res e' ∧ e'.store = e.store ∧
    e'.executed = e.executed

theorem mem_zipIdx_map {τ : Type} {l : List τ} {f : Nat → RangeOrders} {a : τ} :
    (∃ ro, (ro, a) ∈ l.zipIdx.map fun p => (f p.2, p.1)) ↔ a ∈ l := by
  constructor
  · intro ⟨ro, h⟩
    obtain ⟨⟨b, i⟩, hb, heq⟩ := List.mem_map.1 h
    cases heq
    exact List.fst_mem_of_mem_zipIdx hb
  · intro h
    obtain ⟨i, hi, rfl⟩ := List.mem_iff_getElem.1 h
    exact ⟨f i, List.mem_map.2 ⟨(l[i], i), List.mk_mem_zipIdx_iff_getElem?.2 (List.getElem?_eq_getElem hi),
      rfl⟩⟩

theorem forall_zipIdx {τ : Type} {l : List (ObjectivePayload τ)} {f : Nat → RangeOrders}
    {P : ObjectiveId → Prop} :
    (∀ p ∈ l.zipIdx.map fun p => (f p.2, p.1), P p.2.objectiveId) ↔ ∀ a ∈ l, P a.objectiveId := by
  constructor
  · intro h a ha
    obtain ⟨ro, hmem⟩ := (mem_zipIdx_map (f := f)).2 ha
    exact h (ro, a) hmem
  · intro h p hp
    exact h p.2 (mem_zipIdx_map.1 ⟨p.1, hp⟩)

end Engine

theorem Message.forall_payloads {m : Message} {P : ObjectiveId → Prop} :
    (∀ p ∈ m.payloads, P p.objectiveId) ↔
      (∀ a ∈ m.stateEntries, P a.objectiveId) ∧ ∀ a ∈ m.signedProposals, P a.objectiveId := by
  constructor
  · intro h
    constructor
    · intro a ha
      obtain ⟨p, hp, -, rfl⟩ := Message.mem_stateEntries.1 ha
      exact h p hp
    · intro a ha
      obtain ⟨p, hp, -, rfl⟩ := Message.mem_signedProposals.1 ha
      exact h p hp
  · intro ⟨hs, hp⟩ p hmem
    cases htype : p.type with
    | signedStatePayload => exact hs _ (Message.mem_stateEntries.2 ⟨p, hmem, htype, rfl⟩)
    | signedProposalPayload => exact hp _ (Message.mem_signedProposals.2 ⟨p, hmem, htype, rfl⟩)

namespace Engine

theorem handleMessage_ended {cr : Crypto} {client : Client} {ro : Nat → RangeOrders} {m : Message}
    {e e' : Engine} {res : ObjectiveChangeEvent}
    (h : ∀ p ∈ m.payloads, MemStore.Ended cr e.store p.objectiveId) :
    handleMessage cr client ro m e = .ok res e' ↔
      m.Identified cr ∧ (∀ p ∈ m.payloads, MemStore.Absorbing cr e.store p.objectiveId) ∧
        res = ⟨[], []⟩ ∧ e' = e := by
  obtain ⟨hs, hp⟩ := Message.forall_payloads.1 h
  have hstates {states : List (ObjectivePayload SignedState)} {P : ObjectiveId → Prop}
      (hm : m.signedStates cr = .ok states) :
      (∀ a ∈ states, P a.objectiveId) ↔ ∀ a ∈ m.stateEntries, P a.objectiveId := by
    constructor
    · intro h a ha
      exact h a ((Message.mem_signedStates hm).2 ha)
    · intro h a ha
      exact h a ((Message.mem_signedStates hm).1 ha)
  rw [Message.forall_payloads]
  constructor
  · intro hrun
    obtain ⟨ids, hids, hsummarized⟩ := Meth.lift_bind_eq_ok.1 hrun
    obtain ⟨states, hm, hsorted⟩ := Meth.lift_bind_eq_ok.1 hsummarized
    obtain ⟨first, e₁, hfirst, hnext⟩ := Meth.bind_eq_ok.1 hsorted
    obtain ⟨hall, hr, he₁⟩ := (handleSignedStates_ended (forall_zipIdx.2 ((hstates hm).2 hs))).1 hfirst
    rw [hr, he₁] at hnext
    obtain ⟨more, e₂, hmore, hend⟩ := Meth.bind_eq_ok.1 hnext
    obtain ⟨hall', hr', he₂⟩ := (handleSignedProposals_ended
      (forall_zipIdx (f := fun i => ro (states.length + i)).2 hp)).1 hmore
    rw [hr', he₂] at hend
    cases hend
    exact ⟨Message.summarize_ok_iff.1 ⟨ids, hids⟩,
      ⟨(hstates hm).1 (forall_zipIdx.1 hall),
        (forall_zipIdx (f := fun i => ro (states.length + i))).1 hall'⟩, rfl, rfl⟩
  · intro ⟨hids, ⟨hall, hall'⟩, hr, he⟩
    subst hr he
    obtain ⟨ids, hsummary⟩ := Message.summarize_ok_iff.2 hids
    obtain ⟨states, hm⟩ := hids.signedStates
    refine Meth.lift_bind_eq_ok.2 ⟨ids, hsummary, Meth.lift_bind_eq_ok.2 ⟨states, hm, ?_⟩⟩
    refine Meth.bind_eq_ok.2 ⟨([], false), e', (handleSignedStates_ended
      (forall_zipIdx.2 ((hstates hm).2 hs))).2 ⟨forall_zipIdx.2 ((hstates hm).2 hall), rfl, rfl⟩, ?_⟩
    exact Meth.bind_eq_ok.2 ⟨[], e', (handleSignedProposals_ended
      (forall_zipIdx (f := fun i => ro (states.length + i)).2 hp)).2
      ⟨(forall_zipIdx (f := fun i => ro (states.length + i))).2 hall', rfl, rfl⟩, rfl⟩

/-- **when a late message is absorbed**: for a message to objectives that have come to an end, the
handler returns and changes nothing exactly if every objective is completed, what it refers to is still
in the tables, and every state has a channel id -/
theorem handleMessage_absorbed_iff (cr : Crypto) (client : Client) (ro : Nat → RangeOrders) (m : Message)
    (e : Engine) (h : ∀ p ∈ m.payloads, MemStore.Ended cr e.store p.objectiveId) :
    Absorbs cr client ro m e ↔
      (∀ p ∈ m.payloads, MemStore.Absorbing cr e.store p.objectiveId) ∧ m.Identified cr := by
  constructor
  · intro ⟨res, e', hrun, _⟩
    obtain ⟨hids, hall, -⟩ := (handleMessage_ended h).1 hrun
    exact ⟨hall, hids⟩
  · intro ⟨hall, hids⟩
    exact ⟨_, e, (handleMessage_ended h).2 ⟨hids, hall, rfl, rfl⟩, rfl, rfl⟩

end Engine

/-! ## a duplicate of a rejected message -/

section rejected
variable {cr : Crypto} {client : Client} {ro : Nat → RangeOrders} {m : Message} {e : Engine}
  {p : MessagePayload} {o o' : DirectFund.Objective}

/-- the only payload of a message is a new state, and the policy is against it -/
theorem Engine.handleMessage_rejected (hm : m.payloads = [p]) (htype : p.type = .signedStatePayload)
    (hids : m.Identified cr) (hid : p.objectiveId = o.id) (hnew : o.id ∉ e.store.objectives)
    (hmade : DirectFund.constructFromState cr false p.signedState.state client.me = .ok o)
    (hpolicy : client.shouldApprove (.directFund o) = false) (hrejected : o.reject cr = .ok o')
    (hstatus : o'.status = .rejected) :
    handleMessage cr client ro m e = .ok ⟨[.directFund o'], []⟩
      { e with store := (e.store.write o.id (.directFund o)).write o'.id (.directFund o') } := by
  obtain ⟨ids, hsummary⟩ := Message.summarize_ok_iff.2 hids
  have hentries : m.stateEntries = [⟨p.signedState, p.objectiveId⟩] := by
    simp [Message.stateEntries, hm, htype]
  have hstates : m.signedStates cr = .ok [⟨p.signedState, p.objectiveId⟩] := by
    unfold Message.signedStates
    change (if m.stateEntries.length < 2 then Except.ok m.stateEntries else _) = _
    rw [if_pos (by rw [hentries]; exact Nat.one_lt_two), hentries]
  have hcreate : getOrCreateObjective cr client.me (ro 0) p.objectiveId p.signedState e.store =
      .ok (.directFund o) (e.store.write o.id (.directFund o)) := by
    rw [hid]
    exact (getOrCreateObjective_new hnew).2
      ⟨o.id, construct_directFund (hasPrefix_append _ _) hmade, rfl, rfl⟩
  have hset (ms : MemStore) : MemStore.setObjective cr (.directFund o') ms =
      .ok () (ms.write o'.id (.directFund o')) := by
    rw [MemStore.setObjective_run rfl rfl, if_neg]
    show o'.status ≠ .approved
    rw [hstatus]
    exact fun h => nomatch h
  have hunapproved : (Objective.directFund o).getStatus = .unapproved :=
    DirectFund.constructFromState_status hmade
  have hreject : approveOrReject cr client (.directFund o)
      { e with store := e.store.write o.id (.directFund o) } =
      .ok (.directFund o', true) { e with
        store := (e.store.write o.id (.directFund o)).write o'.id (.directFund o') } := by
    unfold approveOrReject
    rw [if_pos hunapproved, hpolicy]
    refine Meth.lift_bind_eq_ok.2 ⟨.directFund o', ?_, ?_⟩
    · show (o.reject cr).map Objective.directFund = _
      rw [hrejected]
      rfl
    · exact Meth.bind_eq_ok.2 ⟨(), _, Meth.zoom_eq_ok.2 ⟨_, hset _, rfl⟩, rfl⟩
  have hstate : handleSignedState cr client (ro 0) ⟨p.signedState, p.objectiveId⟩ e =
      .ok ([.directFund o'], true) { e with
        store := (e.store.write o.id (.directFund o)).write o'.id (.directFund o') } := by
    refine Meth.bind_eq_ok.2 ⟨_, _, Meth.zoom_eq_ok.2 ⟨_, hcreate, rfl⟩, ?_⟩
    exact Meth.bind_eq_ok.2 ⟨_, _, hreject, rfl⟩
  refine Meth.lift_bind_eq_ok.2 ⟨ids, hsummary, Meth.lift_bind_eq_ok.2 ⟨_, hstates, ?_⟩⟩
  refine Meth.bind_eq_ok.2 ⟨_, _, Meth.bind_eq_ok.2 ⟨_, _, hstate, rfl⟩, rfl⟩

theorem MemStore.lookup_write (ms : MemStore) (o : DirectFund.Objective) :
    (ms.write o.id (.directFund o)).objectives.lookup o.id =
      some (Objective.directFund o).marshalJSON := by
  rw [MemStore.write_objectives, Finmap.lookup_insert]

theorem MemStore.ended_write (cr : Crypto) (ms : MemStore) {o : DirectFund.Objective}
    (h : o.status = .completed ∨ o.status = .rejected) :
    Ended cr (ms.write o.id (.directFund o)) o.id :=
  ⟨.directFund o, rfl, lookup_write ms o, h⟩

theorem MemStore.absorbing_write (cr : Crypto) (ms : MemStore) {o : DirectFund.Objective}
    (h : o.status = .completed) : Absorbing cr (ms.write o.id (.directFund o)) o.id := by
  refine ⟨.directFund o, rfl, lookup_write ms o, h, (present_channel rfl rfl).2 ?_⟩
  rw [write_channels]
  exact Finmap.mem_insert.2 (.inl rfl)

theorem MemStore.not_absorbing_write (cr : Crypto) (ms : MemStore) {o : DirectFund.Objective}
    (h : o.status = .rejected) : ¬ Absorbing cr (ms.write o.id (.directFund o)) o.id := by
  intro ⟨o', _, hstored, hstatus, _⟩
  have hjson : o'.marshalJSON = (Objective.directFund o).marshalJSON :=
    Option.some.inj (hstored.symm.trans (lookup_write ms o))
  have hsame : o'.getStatus = o.status := Objective.status_of_marshalJSON hjson
  rw [hstatus, h] at hsame
  cases hsame

theorem Engine.duplicate_rejected (hm : m.payloads = [p]) (hid : p.objectiveId = o'.id)
    (hstatus : o'.status = .rejected) (ms : MemStore)
    (he : e.store = ms.write o'.id (.directFund o')) :
    (∀ p ∈ m.payloads, MemStore.Ended cr e.store p.objectiveId) ∧ ¬ Absorbs cr client ro m e := by
  have hended : ∀ p ∈ m.payloads, MemStore.Ended cr e.store p.objectiveId := by
    rw [hm, he]
    intro q hq
    rw [List.mem_singleton.1 hq, hid]
    exact MemStore.ended_write cr ms (.inr hstatus)
  refine ⟨hended, ?_⟩
  intro ⟨res, e', hrun, _⟩
  obtain ⟨-, hall, -⟩ := (Engine.handleMessage_ended hended).1 hrun
  rw [hm, he] at hall
  have habsorbing := hall p List.mem_cons_self
  rw [hid] at habsorbing
  exact MemStore.not_absorbing_write cr ms hstatus habsorbing

end rejected

namespace Sample

/-- the peer's prefund state, under the id of its channel -/
def peerMessage : Message := ⟨1, [⟨peerObjective.id, peerState, SignedProposal.zero⟩]⟩

def withStatus (o : DirectFund.Objective) (status : ObjectiveStatus) : DirectFund.Objective :=
  { o with status := status }

theorem id_withStatus (o : DirectFund.Objective) (status : ObjectiveStatus) :
    o.id = (withStatus o status).id := rfl

def rejectedObjective : DirectFund.Objective := withStatus peerObjective .rejected
def completedObjective : DirectFund.Objective := withStatus peerObjective .completed

theorem reject_peerObjective : peerObjective.reject Crypto.plain = .ok rejectedObjective := by
  decide +kernel

theorem peerMessage_identified : peerMessage.Identified Crypto.plain := by
  intro entry hentry
  obtain ⟨p, hp, -, rfl⟩ := Message.mem_stateEntries.1 hentry
  cases List.mem_singleton.1 hp
  obtain ⟨i, hi, hnew⟩ := (DirectFund.constructFromState_ok new_peerObjective).channel
  exact ⟨_, (Channel.new_ok hnew).1⟩

theorem peerMessage_type : MessagePayload.type ⟨peerObjective.id, peerState, SignedProposal.zero⟩ =
    .signedStatePayload := rfl

/-- a client that approves nothing -/
def refusing : Client := ⟨1, key 1, fun _ => false⟩

/-- the engine after the message has been rejected -/
def rejectedEngine : Engine :=
  ⟨(MemStore.empty.write peerObjective.id (.directFund peerObjective)).write rejectedObjective.id
    (.directFund rejectedObjective), []⟩

/-- an engine with the completed objective and its channel -/
def completedEngine : Engine :=
  ⟨MemStore.empty.write completedObjective.id (.directFund completedObjective), []⟩

end Sample

open Sample in
/-- **the duplicate of a rejected message**: the engine takes a prefund state and rejects it; when the
same message comes again, it fails -/
theorem duplicate_of_rejected :
    Engine.handleMessage Crypto.plain refusing (fun _ => rangeOrders) peerMessage
      ⟨MemStore.empty, []⟩ = .ok ⟨[.directFund rejectedObjective], []⟩ rejectedEngine ∧
    (∀ p ∈ peerMessage.payloads,
      MemStore.Ended Crypto.plain rejectedEngine.store p.objectiveId) ∧
    ¬ Engine.Absorbs Crypto.plain refusing (fun _ => rangeOrders) peerMessage rejectedEngine := by
  have hid : peerObjective.id = rejectedObjective.id := id_withStatus peerObjective .rejected
  exact ⟨Engine.handleMessage_rejected rfl peerMessage_type peerMessage_identified rfl
    Finmap.notMem_empty new_peerObjective rfl reject_peerObjective rfl,
    Engine.duplicate_rejected rfl hid rfl _ rfl⟩

open Sample in
/-- the same message for the objective when it is completed and its channel is still there -/
theorem duplicate_of_completed : Engine.Absorbs Crypto.plain refusing (fun _ => rangeOrders) peerMessage
    completedEngine := by
  have hid : peerObjective.id = completedObjective.id := id_withStatus peerObjective .completed
  refine (Engine.handleMessage_absorbed_iff Crypto.plain refusing (fun _ => rangeOrders) peerMessage
    completedEngine ?_).2 ⟨?_, peerMessage_identified⟩
  · intro p hp
    rw [List.mem_singleton.1 hp]
    show MemStore.Ended Crypto.plain completedEngine.store peerObjective.id
    rw [hid]
    exact MemStore.ended_write Crypto.plain MemStore.empty (.inl rfl)
  · intro p hp
    rw [List.mem_singleton.1 hp]
    show MemStore.Absorbing Crypto.plain completedEngine.store peerObjective.id
    rw [hid]
    exact MemStore.absorbing_write Crypto.plain MemStore.empty rfl

end Nitro
