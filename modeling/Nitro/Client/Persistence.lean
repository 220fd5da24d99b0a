import Nitro.Client.Ownership

/-!
# Writing an objective and reading it back

The store splits an objective into JSON without the data of its channels and the channels, and puts the
parts together again when it reads.  What comes back is the objective, unless a ledger is missing or two
ledgers have one id.

* `skeleton`                        what the JSON says of an objective;
* `RoundTrips`                      writing, reading and writing again;
* `Restorable`                      the objectives that survive it: all of direct funding and defunding;
                                    of virtual funding those whose ledgers have ids of their own; of
                                    virtual defunding only those with two ledgers;
* `getObjectiveById_eq_self_iff`    **when the objective that is read is the one that was written**;
* `after_idem`                      writing twice is writing once.
-/

set_option linter.unusedSectionVars false

namespace Nitro
open Go FinMap
open Protocols (Objective Storable Kind)

/-! ## the JSON of an objective -/

namespace Protocols.Objective
variable {cr : Crypto}

/-- the objective that the JSON is read as -/
def skeleton : Objective → Objective
  | directFund o => .directFund { o with c := Channel.blank o.c.id }
  | directDefund o => .directDefund { o with c := Channel.blank o.c.id }
  | virtualFund o => .virtualFund { o with
      v := Channel.blank o.v.id
      toMyLeft := VirtualFund.Connection.skeleton o.toMyLeft
      toMyRight := VirtualFund.Connection.skeleton o.toMyRight }
  | virtualDefund o => .virtualDefund { o with
      toMyLeft := some (o.toMyLeft.getD (ConsensusChannel.blank 0))
      toMyRight := some (o.toMyRight.getD (ConsensusChannel.blank 0)) }

theorem skeleton_id (o : Objective) : o.skeleton.id cr = o.id cr := by
  cases o <;> rfl

end Protocols.Objective

theorem decodeObjective_marshalJSON {cr : Crypto} {o : Objective} {id : ObjectiveId}
    (hid : o.id cr = .ok id) : decodeObjective id o.marshalJSON = .ok o.skeleton := by
  obtain ⟨d, -, rfl⟩ := Objective.id_eq_ok.1 hid
  -- the prefix of each kind, as it is tested
  have hstart (k : Kind) := Kind.hasPrefix_start o.kind k (destinationString d)
  have h1 := hstart .directFund
  have h2 := hstart .directDefund
  have h3 := hstart .virtualFund
  have h4 := hstart .virtualDefund
  unfold decodeObjective
  change hasPrefix _ DirectFund.objectivePrefix = _ at h1
  change hasPrefix _ DirectDefund.objectivePrefix = _ at h2
  change hasPrefix _ VirtualFund.objectivePrefix = _ at h3
  change hasPrefix _ VirtualDefund.objectivePrefix = _ at h4
  rw [h1, h2, h3, h4]
  cases o with
  | directFund o =>
    show (DirectFund.Objective.unmarshalJSON o.marshalJSON).map _ = _
    rw [DirectFund.Objective.unmarshalJSON_marshalJSON]
    rfl
  | directDefund o =>
    show (DirectDefund.Objective.unmarshalJSON o.marshalJSON).map _ = _
    rw [DirectDefund.Objective.unmarshalJSON_marshalJSON]
    rfl
  | virtualFund o =>
    show (VirtualFund.Objective.unmarshalJSON o.marshalJSON).map _ = _
    rw [VirtualFund.Objective.unmarshalJSON_marshalJSON]
    rfl
  | virtualDefund o =>
    show (VirtualDefund.Objective.unmarshalJSON o.marshalJSON).map _ = _
    rw [VirtualDefund.Objective.unmarshalJSON_marshalJSON]
    rfl

namespace MemStore
variable {cr : Crypto} {ms : MemStore} {o : Objective} {id : ObjectiveId}

/-! ## writing -/

/-- of the tables that are read, only what `write` does -/
structure SameTables (ms ms' : MemStore) : Prop where
  objectives : ms'.objectives = ms.objectives
  channels : ms'.channels = ms.channels
  consensusChannels : ms'.consensusChannels = ms.consensusChannels

theorem after_tables (ms : MemStore) (hid : o.id cr = .ok id) :
    SameTables (ms.write id o) ((setObjective cr o).after ms) := by
  obtain ⟨d, hd⟩ := exists_ownsChannel hid
  rcases setObjective_cases cr ms hid hd with ⟨-, e, h⟩ | ⟨-, -, -, h⟩ | ⟨-, -, h⟩
  · rw [Meth.after_error h]
    exact ⟨rfl, rfl, rfl⟩
  · rw [Meth.after_ok h]
    exact ⟨rfl, rfl, rfl⟩
  · rw [Meth.after_ok h]
    exact ⟨rfl, rfl, rfl⟩

theorem held_after (ms : MemStore) (hid : o.id cr = .ok id) :
    Held ((setObjective cr o).after ms) id o := by
  have ht := after_tables ms hid
  refine ⟨?_, fun c hc => ?_, fun c hc => ?_⟩
  · rw [ht.objectives, write_objectives, Finmap.lookup_insert]
  · rw [ht.channels, write_channels]
    exact lookup_fill_latest _ _ hc _
  · rw [ht.consensusChannels, write_consensusChannels]
    exact lookup_fill_latest _ _ hc _

/-- **writing twice is writing once** -/
theorem after_idem (ms : MemStore) (hid : o.id cr = .ok id) :
    (setObjective cr o).after ((setObjective cr o).after ms) = (setObjective cr o).after ms := by
  have hwrite : ((setObjective cr o).after ms).write id o = (setObjective cr o).after ms :=
    write_eq_self_iff.2 (held_after ms hid)
  obtain ⟨d, hd⟩ := exists_ownsChannel hid
  rcases setObjective_cases cr ((setObjective cr o).after ms) hid hd with
    ⟨-, e, h⟩ | ⟨-, happroved, hfree, h⟩ | ⟨-, -, h⟩
  · rw [Meth.after_error h, hwrite]
  · -- the channel has had an owner since the first call
    rcases setObjective_cases cr ms hid hd with ⟨hr, e, hrun⟩ | ⟨hr, -⟩ | ⟨hr, -⟩
    · obtain ⟨-, -, d', prevOwner, -, hd', hlookup, -⟩ := hr
      rw [hd] at hd'
      cases hd'
      rw [Meth.after_error hrun, write_channelToObjective, hlookup] at hfree
      cases hfree
    · rw [(stored_of_accepted hid hd hr).owner happroved] at hfree
      cases hfree
    · rw [(stored_of_accepted hid hd hr).owner happroved] at hfree
      cases hfree
  · rw [Meth.after_ok h, hwrite]

/-! ## reading -/

theorem getObjectiveById_eq (hid : o.id cr = .ok id)
    (hstored : ms.objectives.lookup id = some o.marshalJSON) :
    ms.getObjectiveById cr id = (ms.populateChannelData cr o.skeleton).wrap
      ("error populating channel data for objective " ++ id ++ ": ") := by
  unfold getObjectiveById
  rw [hstored]
  show ((decodeObjective id o.marshalJSON).wrap _ >>= _) = _
  rw [decodeObjective_marshalJSON hid]
  rfl

theorem getChannelData_eq_ok {d : Destination} {c : Channel} :
    ms.getChannelData d = .ok c ↔ ms.channels.lookup d = some c := by
  unfold getChannelData
  cases ms.channels.lookup d <;> simp

theorem getConsensusChannelById_eq_ok {d : Destination} {c : ConsensusChannel} :
    ms.getConsensusChannelById d = .ok c ↔ ms.consensusChannels.lookup d = some c := by
  unfold getConsensusChannelById
  cases ms.consensusChannels.lookup d <;> simp

theorem populateLedger_eq_ok {side : String} {c c' : ConsensusChannel} :
    ms.populateLedger side id c = .ok c' ↔
      (c.id = 0 ∧ c' = c) ∨ (c.id ≠ 0 ∧ ms.consensusChannels.lookup c.id = some c') := by
  unfold populateLedger
  split
  · next h => simp [h, eq_comm]
  · next h =>
    rw [Res.wrap_eq_ok, getConsensusChannelById_eq_ok]
    constructor
    · exact fun hl => .inr ⟨h, hl⟩
    · intro hl
      rcases hl with ⟨hz, -⟩ | ⟨-, hl⟩
      · exact absurd hz h
      · exact hl

theorem populatePointer_eq_ok {α : Type} {f : α → Res α} {p p' : Option α} :
    populatePointer f p = .ok p' ↔
      (p = none ∧ p' = none) ∨ ∃ a a', p = some a ∧ p' = some a' ∧ f a = .ok a' := by
  cases p with
  | none => simp [populatePointer, eq_comm]
  | some a =>
    show (f a >>= fun a => .ok (some a)) = .ok p' ↔ _
    rw [Res.bind_eq_ok]
    constructor
    · intro ⟨a', ha, h⟩
      cases h
      exact .inr ⟨a, a', rfl, rfl, ha⟩
    · intro h
      rcases h with ⟨h, -⟩ | ⟨b, b', hb, rfl, h⟩
      · cases h
      · cases hb
        exact ⟨b', h, rfl⟩

/-- a ledger is read back as it is: one with the zero id from the JSON, any other from the table -/
def Kept (ms : MemStore) (c : ConsensusChannel) : Prop :=
  c.id ≠ 0 → ms.consensusChannels.lookup c.id = some c

theorem populateLedger_self {side : String} {c : ConsensusChannel} :
    ms.populateLedger side id c = .ok c ↔ Kept ms c := by
  rw [populateLedger_eq_ok]
  constructor
  · intro h h0
    rcases h with ⟨hz, -⟩ | ⟨-, hl⟩
    · exact absurd hz h0
    · exact hl
  · intro h
    by_cases h0 : c.id = 0
    · exact .inl ⟨h0, rfl⟩
    · exact .inr ⟨h0, h h0⟩

/-- a connection of virtual funding: the zero id stands for none -/
theorem populate_skeleton_self {side : String} {c : Option VirtualFund.Connection} :
    populatePointer (fun c : VirtualFund.Connection => do
        let ledger ← ms.populateLedger side id c.channel
        (.ok { c with channel := ledger } : Res VirtualFund.Connection))
      (VirtualFund.Connection.skeleton c) = .ok c ↔
    ∀ a, c = some a → a.channel.id ≠ 0 ∧ ms.consensusChannels.lookup a.channel.id =
      some a.channel := by
  cases c with
  | none => simp [VirtualFund.Connection.skeleton, populatePointer]
  | some a =>
    by_cases h0 : a.channel.id = 0
    · have hnone : VirtualFund.Connection.skeleton (some a) = none := if_pos h0
      rw [hnone]
      constructor
      · intro h
        cases h
      · intro h
        exact absurd h0 (h a rfl).1
    · have hsome : VirtualFund.Connection.skeleton (some a) =
          some { a with channel := ConsensusChannel.blank a.channel.id } := if_neg h0
      rw [hsome, populatePointer_eq_ok]
      constructor
      · intro h b hb
        cases hb
        rcases h with ⟨h, -⟩ | ⟨b, b', hb, hb', h⟩
        · cases h
        · cases hb
          cases hb'
          obtain ⟨ledger, hledger, h⟩ := Res.bind_eq_ok.1 h
          rcases populateLedger_eq_ok.1 hledger with ⟨hz, -⟩ | ⟨-, hlookup⟩
          · exact absurd hz h0
          · have hchannel : ledger = a.channel :=
              congrArg VirtualFund.Connection.channel (Except.ok.inj h)
            rw [← hchannel]
            rw [← hchannel] at hlookup h0
            exact ⟨h0, hlookup⟩
      · intro h
        refine .inr ⟨_, a, rfl, rfl, ?_⟩
        have hledger : ms.populateLedger side id (ConsensusChannel.blank a.channel.id) =
            .ok a.channel := populateLedger_eq_ok.2 (.inr ⟨h0, (h a rfl).2⟩)
        show (ms.populateLedger side id (ConsensusChannel.blank a.channel.id) >>= _) = _
        rw [hledger]
        rfl

theorem populate_getD_self {side : String} {c : Option ConsensusChannel} :
    populatePointer (ms.populateLedger side id) (some (c.getD (ConsensusChannel.blank 0))) = .ok c ↔
      ∃ a, c = some a ∧ Kept ms a := by
  rw [populatePointer_eq_ok]
  constructor
  · intro h
    rcases h with ⟨h, -⟩ | ⟨a, a', ha, rfl, h⟩
    · cases h
    · cases ha
      exact ⟨a', rfl, populateLedger_self.1 h⟩
  · intro ⟨a, hc, hkept⟩
    subst hc
    exact .inr ⟨a, a, rfl, rfl, populateLedger_self.2 hkept⟩

/-- what the tables must have for the objective to be read as it is -/
def Complete (ms : MemStore) : Objective → Prop
  | .directFund o => ms.channels.lookup o.c.id = some o.c
  | .directDefund o => ms.channels.lookup o.c.id = some o.c
  | .virtualFund o => ms.channels.lookup o.v.id = some o.v ∧
      (∀ a, o.toMyLeft = some a → a.channel.id ≠ 0 ∧
        ms.consensusChannels.lookup a.channel.id = some a.channel) ∧
      (∀ a, o.toMyRight = some a → a.channel.id ≠ 0 ∧
        ms.consensusChannels.lookup a.channel.id = some a.channel)
  | .virtualDefund o => (∃ a, o.toMyLeft = some a ∧ Kept ms a) ∧ ∃ a, o.toMyRight = some a ∧ Kept ms a

theorem populate_skeleton_eq_self_iff (hid : o.id cr = .ok id) :
    ms.populateChannelData cr o.skeleton = .ok o ↔ Complete ms o := by
  unfold populateChannelData
  rw [Objective.skeleton_id, hid, Res.ok_bind]
  cases o with
  | directFund o =>
    show ((ms.getChannelData o.c.id).wrap _ >>= fun c => _) = _ ↔ ms.channels.lookup o.c.id = some o.c
    rw [Res.bind_eq_ok]
    constructor
    · intro ⟨c, hc, h⟩
      have hsame : c = o.c := congrArg DirectFund.Objective.c (Objective.directFund.inj (Except.ok.inj h))
      rw [hsame] at hc
      exact getChannelData_eq_ok.1 (Res.wrap_eq_ok.1 hc)
    · intro h
      exact ⟨o.c, Res.wrap_eq_ok.2 (getChannelData_eq_ok.2 h), rfl⟩
  | directDefund o =>
    show ((ms.getChannelData o.c.id).wrap _ >>= fun c => _) = _ ↔ ms.channels.lookup o.c.id = some o.c
    rw [Res.bind_eq_ok]
    constructor
    · intro ⟨c, hc, h⟩
      have hsame : c = o.c := congrArg DirectDefund.Objective.c (Objective.directDefund.inj (Except.ok.inj h))
      rw [hsame] at hc
      exact getChannelData_eq_ok.1 (Res.wrap_eq_ok.1 hc)
    · intro h
      exact ⟨o.c, Res.wrap_eq_ok.2 (getChannelData_eq_ok.2 h), rfl⟩
  | virtualFund o =>
    constructor
    · intro h
      obtain ⟨v, hv, h⟩ := Res.bind_eq_ok.1 h
      obtain ⟨l, hl, h⟩ := Res.bind_eq_ok.1 h
      obtain ⟨r, hr, h⟩ := Res.bind_eq_ok.1 h
      have hsame := Objective.virtualFund.inj (Except.ok.inj h)
      have hv' : v = o.v := congrArg VirtualFund.Objective.v hsame
      have hl' : l = o.toMyLeft := congrArg VirtualFund.Objective.toMyLeft hsame
      have hr' : r = o.toMyRight := congrArg VirtualFund.Objective.toMyRight hsame
      rw [hv'] at hv
      rw [hl'] at hl
      rw [hr'] at hr
      exact ⟨getChannelData_eq_ok.1 (Res.wrap_eq_ok.1 hv), populate_skeleton_self.1 hl,
        populate_skeleton_self.1 hr⟩
    · intro ⟨hv, hl, hr⟩
      refine Res.bind_eq_ok.2 ⟨o.v, Res.wrap_eq_ok.2 (getChannelData_eq_ok.2 hv), ?_⟩
      refine Res.bind_eq_ok.2 ⟨o.toMyLeft, populate_skeleton_self.2 hl, ?_⟩
      exact Res.bind_eq_ok.2 ⟨o.toMyRight, populate_skeleton_self.2 hr, rfl⟩
  | virtualDefund o =>
    constructor
    · intro h
      obtain ⟨l, hl, h⟩ := Res.bind_eq_ok.1 h
      obtain ⟨r, hr, h⟩ := Res.bind_eq_ok.1 h
      have hsame := Objective.virtualDefund.inj (Except.ok.inj h)
      have hl' : l = o.toMyLeft := congrArg VirtualDefund.Objective.toMyLeft hsame
      have hr' : r = o.toMyRight := congrArg VirtualDefund.Objective.toMyRight hsame
      rw [hl'] at hl
      rw [hr'] at hr
      exact ⟨populate_getD_self.1 hl, populate_getD_self.1 hr⟩
    · intro ⟨hl, hr⟩
      refine Res.bind_eq_ok.2 ⟨o.toMyLeft, populate_getD_self.2 hl, ?_⟩
      exact Res.bind_eq_ok.2 ⟨o.toMyRight, populate_getD_self.2 hr, rfl⟩

/-- **when the objective that is read is the one that was written** -/
theorem getObjectiveById_eq_self_iff (hid : o.id cr = .ok id)
    (hstored : ms.objectives.lookup id = some o.marshalJSON) :
    ms.getObjectiveById cr id = .ok o ↔ Complete ms o := by
  rw [getObjectiveById_eq hid hstored, Res.wrap_eq_ok, populate_skeleton_eq_self_iff hid]

/-! ## the round trip -/

/-- two ledgers with one id are one ledger -/
def NoClash (l r : ConsensusChannel) : Prop := l.id = r.id → l.id ≠ 0 → l = r

/-- the objectives that survive being written and read -/
def Restorable (cr : Crypto) : Objective → Prop
  | .directFund _ => True
  | .directDefund _ => True
  | .virtualFund o => (∀ a, o.toMyLeft = some a → a.channel.id ≠ 0) ∧
      (∀ a, o.toMyRight = some a → a.channel.id ≠ 0) ∧
      ∀ a b, o.toMyLeft = some a → o.toMyRight = some b → NoClash a.channel b.channel
  | .virtualDefund o => (∃ d, o.vId cr = .ok d) ∧
      ∃ a b, o.toMyLeft = some a ∧ o.toMyRight = some b ∧ NoClash a b

/-- writing the objective and reading it back gives the objective; writing what was read changes
nothing, and no channel has come that the objective does not refer to -/
def RoundTrips (cr : Crypto) (ms : MemStore) (o : Objective) : Prop :=
  ∃ id, o.id cr = .ok id ∧ ∃ o', ((setObjective cr o).after ms).getObjectiveById cr id = .ok o' ∧
    o' = o ∧
    (setObjective cr o').after ((setObjective cr o).after ms) = (setObjective cr o).after ms ∧
    (∀ d ∈ ((setObjective cr o).after ms).channels,
      d ∈ ms.channels ∨ ∃ c ∈ o.relatedChannels, c.id = d) ∧
    ∀ d ∈ ((setObjective cr o).after ms).consensusChannels,
      d ∈ ms.consensusChannels ∨ ∃ c ∈ o.relatedLedgers, c.id = d

theorem relatedLedgers_virtualFund (o : VirtualFund.Objective) :
    (Objective.virtualFund o).relatedLedgers =
      (o.toMyLeft.map VirtualFund.Connection.channel).toList ++
        (o.toMyRight.map VirtualFund.Connection.channel).toList := by
  obtain ⟨_, _, left, right, _, _, _, _⟩ := o
  cases left <;> cases right <;> rfl

theorem relatedChannels_virtualFund (o : VirtualFund.Objective) :
    (Objective.virtualFund o).relatedChannels = [o.v] := by
  obtain ⟨_, _, left, right, _, _, _, _⟩ := o
  cases left <;> cases right <;> rfl

theorem relatedLedgers_virtualDefund (o : VirtualDefund.Objective) :
    (Objective.virtualDefund o).relatedLedgers = o.toMyLeft.toList ++ o.toMyRight.toList := by
  obtain ⟨_, _, _, _, _, left, right, _⟩ := o
  cases left <;> cases right <;> rfl

theorem lookup_after_of_agree (ms : MemStore) (hid : o.id cr = .ok id) {c : ConsensusChannel}
    (hc : c ∈ o.relatedLedgers) (hagree : ∀ b ∈ o.relatedLedgers, b.id = c.id → b = c) :
    ((setObjective cr o).after ms).consensusChannels.lookup c.id = some c := by
  obtain ⟨b, hb, hid'⟩ := exists_latest ConsensusChannel.id ⟨c, hc, rfl⟩
  have hmem : b ∈ o.relatedLedgers := by
    obtain ⟨l₁, l₂, h, -⟩ := hb
    rw [h]
    simp
  have hheld := (held_after ms hid).ledgers b hb
  rw [hagree b hmem hid'] at hheld
  exact hheld

theorem lookup_after_channel (ms : MemStore) (hid : o.id cr = .ok id) {c : Channel}
    (hc : o.relatedChannels = [c]) :
    ((setObjective cr o).after ms).channels.lookup c.id = some c := by
  refine (held_after ms hid).channels c ?_
  rw [hc]
  exact ⟨[], [], rfl, fun b hb => absurd hb List.not_mem_nil⟩

theorem complete_after_iff (ms : MemStore) (hid : o.id cr = .ok id) :
    Complete ((setObjective cr o).after ms) o ↔ Restorable cr o := by
  cases o with
  | directFund o => exact iff_of_true (lookup_after_channel ms hid rfl) trivial
  | directDefund o => exact iff_of_true (lookup_after_channel ms hid rfl) trivial
  | virtualFund o =>
    constructor
    · intro ⟨_, hl, hr⟩
      refine ⟨fun a ha => (hl a ha).1, fun a ha => (hr a ha).1, fun a b ha hb hids _ => ?_⟩
      have hleft := (hl a ha).2
      rw [hids, (hr b hb).2] at hleft
      exact (Option.some.inj hleft).symm
    · intro ⟨hl, hr, hclash⟩
      have hmem (c : ConsensusChannel) : c ∈ (Objective.virtualFund o).relatedLedgers ↔
          (∃ a, o.toMyLeft = some a ∧ a.channel = c) ∨ ∃ a, o.toMyRight = some a ∧ a.channel = c := by
        rw [relatedLedgers_virtualFund]
        simp
      refine ⟨lookup_after_channel ms hid (relatedChannels_virtualFund o),
        fun a ha => ⟨hl a ha, ?_⟩, fun a ha => ⟨hr a ha, ?_⟩⟩
      · refine lookup_after_of_agree ms hid ((hmem _).2 (.inl ⟨a, ha, rfl⟩)) fun b hb hids => ?_
        rcases (hmem b).1 hb with ⟨x, hx, rfl⟩ | ⟨x, hx, rfl⟩
        · rw [ha] at hx
          cases hx
          rfl
        · exact (hclash a x ha hx hids.symm (hl a ha)).symm
      · refine lookup_after_of_agree ms hid ((hmem _).2 (.inr ⟨a, ha, rfl⟩)) fun b hb hids => ?_
        rcases (hmem b).1 hb with ⟨x, hx, rfl⟩ | ⟨x, hx, rfl⟩
        · exact hclash x a hx ha hids (hl x hx)
        · rw [ha] at hx
          cases hx
          rfl
  | virtualDefund o =>
    constructor
    · intro ⟨⟨a, ha, hka⟩, b, hb, hkb⟩
      obtain ⟨d, hd⟩ := exists_ownsChannel hid
      refine ⟨⟨d, hd⟩, a, b, ha, hb, fun hids h0 => ?_⟩
      have hleft := hka h0
      rw [hids, hkb (hids ▸ h0)] at hleft
      exact (Option.some.inj hleft).symm
    · intro ⟨_, a, b, ha, hb, hclash⟩
      have hmem (c : ConsensusChannel) :
          c ∈ (Objective.virtualDefund o).relatedLedgers ↔ c = a ∨ c = b := by
        rw [relatedLedgers_virtualDefund, ha, hb]
        simp
      refine ⟨⟨a, ha, fun h0 => ?_⟩, b, hb, fun h0 => ?_⟩
      · refine lookup_after_of_agree ms hid ((hmem a).2 (.inl rfl)) fun c hc hids => ?_
        rcases (hmem c).1 hc with rfl | rfl
        · rfl
        · exact (hclash hids.symm h0).symm
      · refine lookup_after_of_agree ms hid ((hmem b).2 (.inr rfl)) fun c hc hids => ?_
        rcases (hmem c).1 hc with rfl | rfl
        · exact hclash hids (hids ▸ h0)
        · rfl

theorem mem_after_channels (hid : o.id cr = .ok id) {d : Destination}
    (hd : d ∈ ((setObjective cr o).after ms).channels) :
    d ∈ ms.channels ∨ ∃ c ∈ o.relatedChannels, c.id = d := by
  rw [(after_tables ms hid).channels, write_channels] at hd
  by_cases hc : ∃ c ∈ o.relatedChannels, c.id = d
  · exact .inr hc
  · rw [← Finmap.lookup_isSome,
      lookup_fill_of_notMem _ _ fun c hmem hcd => hc ⟨c, hmem, hcd⟩] at hd
    exact .inl (Finmap.lookup_isSome.1 hd)

theorem mem_after_ledgers (hid : o.id cr = .ok id) {d : Destination}
    (hd : d ∈ ((setObjective cr o).after ms).consensusChannels) :
    d ∈ ms.consensusChannels ∨ ∃ c ∈ o.relatedLedgers, c.id = d := by
  rw [(after_tables ms hid).consensusChannels, write_consensusChannels] at hd
  by_cases hc : ∃ c ∈ o.relatedLedgers, c.id = d
  · exact .inr hc
  · rw [← Finmap.lookup_isSome,
      lookup_fill_of_notMem _ _ fun c hmem hcd => hc ⟨c, hmem, hcd⟩] at hd
    exact .inl (Finmap.lookup_isSome.1 hd)

theorem Restorable.exists_id (h : Restorable cr o) : ∃ id, o.id cr = .ok id := by
  cases o with
  | directFund o => exact ⟨_, rfl⟩
  | directDefund o => exact ⟨_, rfl⟩
  | virtualFund o => exact ⟨_, rfl⟩
  | virtualDefund o =>
    obtain ⟨⟨d, hd⟩, -⟩ := h
    exact ⟨_, Objective.id_eq_ok.2 ⟨d, hd, rfl⟩⟩

/-- **the round trip through the store**: exactly for these objectives, in any store -/
theorem roundTrips_iff (cr : Crypto) (ms : MemStore) (o : Objective) :
    RoundTrips cr ms o ↔ Restorable cr o := by
  constructor
  · intro ⟨id, hid, o', hget, heq, _⟩
    rw [heq, getObjectiveById_eq_self_iff hid (held_after ms hid).objective] at hget
    exact (complete_after_iff ms hid).1 hget
  · intro h
    obtain ⟨id, hid⟩ := h.exists_id
    refine ⟨id, hid, o, ?_, rfl, after_idem ms hid, fun d => mem_after_channels hid,
      fun d => mem_after_ledgers hid⟩
    rw [getObjectiveById_eq_self_iff hid (held_after ms hid).objective]
    exact (complete_after_iff ms hid).2 h

/-! ## a ledger that is missing -/

section missing
variable {o : VirtualDefund.Objective} {ledger : ConsensusChannel}

/-- the objective with a blank ledger on the left -/
def withBlank (o : VirtualDefund.Objective) : VirtualDefund.Objective :=
  { o with toMyLeft := some (ConsensusChannel.blank 0) }

/-- **Alice's objective is read back with a ledger on her left** -/
theorem getObjectiveById_withBlank (ms : MemStore)
    (hid : (Objective.virtualDefund o).id cr = .ok id) (hl : o.toMyLeft = none)
    (hr : o.toMyRight = some ledger) (h0 : ledger.id ≠ 0) :
    ((setObjective cr (.virtualDefund o)).after ms).getObjectiveById cr id =
      .ok (.virtualDefund (withBlank o)) := by
  have hledgers : (Objective.virtualDefund o).relatedLedgers = [ledger] := by
    rw [relatedLedgers_virtualDefund, hl, hr]
    rfl
  have hlookup : ((setObjective cr (.virtualDefund o)).after ms).consensusChannels.lookup ledger.id =
      some ledger := by
    refine (held_after ms hid).ledgers ledger ?_
    rw [hledgers]
    exact ⟨[], [], rfl, fun b hb => absurd hb List.not_mem_nil⟩
  rw [getObjectiveById_eq hid (held_after ms hid).objective]
  refine Res.wrap_eq_ok.2 ?_
  unfold populateChannelData
  rw [Objective.skeleton_id, hid, Res.ok_bind]
  refine Res.bind_eq_ok.2 ⟨some (ConsensusChannel.blank 0), ?_, ?_⟩
  · show populatePointer _ (some (o.toMyLeft.getD _)) = _
    rw [hl]
    exact populatePointer_eq_ok.2 (.inr ⟨_, _, rfl, rfl, populateLedger_eq_ok.2 (.inl ⟨rfl, rfl⟩)⟩)
  · refine Res.bind_eq_ok.2 ⟨some ledger, ?_, ?_⟩
    · show populatePointer _ (some (o.toMyRight.getD _)) = _
      rw [hr]
      exact populatePointer_eq_ok.2 (.inr ⟨_, _, rfl, rfl,
        populateLedger_eq_ok.2 (.inr ⟨h0, hlookup⟩)⟩)
    · unfold withBlank
      rw [← hr]

/-- **and writing it again stores a ledger with the zero id** -/
theorem lookup_zero_withBlank (ms : MemStore) (hid : (Objective.virtualDefund o).id cr = .ok id)
    (hr : o.toMyRight = some ledger) (h0 : ledger.id ≠ 0) :
    ((setObjective cr (.virtualDefund (withBlank o))).after ms).consensusChannels.lookup 0 =
      some (ConsensusChannel.blank 0) := by
  have hid' : (Objective.virtualDefund (withBlank o)).id cr = .ok id := hid
  refine (held_after ms hid').ledgers (ConsensusChannel.blank 0)
    ⟨[], [ledger], ?_, fun b hb => ?_⟩
  · rw [relatedLedgers_virtualDefund]
    show [ConsensusChannel.blank 0] ++ o.toMyRight.toList = _
    rw [hr]
    rfl
  · rw [List.mem_singleton.1 hb]
    exact h0

theorem lookup_zero_after (hid : (Objective.virtualDefund o).id cr = .ok id) (hl : o.toMyLeft = none)
    (hr : o.toMyRight = some ledger) (h0 : ledger.id ≠ 0) (hms : 0 ∉ ms.consensusChannels) :
    ((setObjective cr (.virtualDefund o)).after ms).consensusChannels.lookup 0 = none := by
  refine Finmap.lookup_eq_none.2 fun h => ?_
  rcases mem_after_ledgers hid h with h | ⟨c, hc, hz⟩
  · exact hms h
  · rw [relatedLedgers_virtualDefund, hl, hr] at hc
    have hc : c = ledger := List.mem_singleton.1 hc
    rw [hc] at hz
    exact h0 hz

end missing
end MemStore

namespace Sample

theorem ledgers_aliceDefunds :
    aliceDefunds.toMyLeft = none ∧ aliceDefunds.toMyRight = some guaranteeLedger := by
  decide +kernel

theorem guaranteeLedger_id : guaranteeLedger.id ≠ 0 := by decide +kernel

end Sample

open Sample MemStore in
/-- **Alice's objective to defund a channel does not survive** -/
theorem aliceDefunds_not_restored :
    ¬ RoundTrips Crypto.plain MemStore.empty (.virtualDefund aliceDefunds) ∧
    ((setObjective Crypto.plain (.virtualDefund aliceDefunds)).after
      MemStore.empty).getObjectiveById Crypto.plain defundsId =
        .ok (.virtualDefund (withBlank aliceDefunds)) ∧
    ((setObjective Crypto.plain (.virtualDefund aliceDefunds)).after
      MemStore.empty).consensusChannels.lookup 0 = none ∧
    ((setObjective Crypto.plain (.virtualDefund (withBlank aliceDefunds))).after
      ((setObjective Crypto.plain (.virtualDefund aliceDefunds)).after
        MemStore.empty)).consensusChannels.lookup 0 = some (ConsensusChannel.blank 0) := by
  obtain ⟨hl, hr⟩ := ledgers_aliceDefunds
  have hempty : 0 ∉ MemStore.empty.consensusChannels := Finmap.notMem_empty
  refine ⟨fun h => ?_, getObjectiveById_withBlank _ id_aliceDefunds hl hr guaranteeLedger_id,
    lookup_zero_after id_aliceDefunds hl hr guaranteeLedger_id hempty,
    lookup_zero_withBlank _ id_aliceDefunds hr guaranteeLedger_id⟩
  obtain ⟨id, hid, o', hget, heq, -⟩ := h
  rw [id_aliceDefunds] at hid
  cases hid
  rw [getObjectiveById_withBlank _ id_aliceDefunds hl hr guaranteeLedger_id] at hget
  rw [← Except.ok.inj hget] at heq
  have hleft := congrArg VirtualDefund.Objective.toMyLeft (Objective.virtualDefund.inj heq)
  rw [hl] at hleft
  cases hleft

end Nitro
