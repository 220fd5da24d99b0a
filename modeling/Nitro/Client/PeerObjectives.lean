import Nitro.CopyFidelity
import Nitro.Protocols.Closing
import Nitro.Protocols.DepositSafety
import Nitro.Client.Engine
import Nitro.Client.Persistence

/-!
# Objectives that a peer starts

`getOrCreateObjective` for an objective that is not in the store.  The id in the payload picks the kind
of the new objective and is not looked at again: the objective is stored under the id that its own
channel gives, and its channel under the id of the channel, whatever is there.

* `addressee`           the channel that an objective for the state would own;
* `Fresh`               the channel that an objective for the state would store;
* `Made`                **what a new objective is**: unapproved, with ledgers of the store;
* `Framed`              nothing that was in the store has changed;
* `framed_iff`          when that is so.
-/

set_option linter.unusedSectionVars false

namespace Nitro
open Go FinMap
open Protocols (Objective Storable Kind)

/-! ## ledgers of the store -/

theorem MemStore.getConsensusChannel_stored {ms : MemStore} {order : List Destination}
    {counterparty : Address} {c : ConsensusChannel}
    (h : ms.getConsensusChannel order counterparty = some c) :
    ms.consensusChannels.lookup c.id = some c ∧ isLedgerWith counterparty c = true := by
  obtain ⟨id, -, hid⟩ := List.exists_of_findSome?_eq_some h
  obtain ⟨hlookup, hwith⟩ := Option.filter_eq_some_iff.1 hid
  rw [ms.consensusChannels_id hlookup]
  exact ⟨hlookup, hwith⟩

theorem RangeOrders.getLedger_stored {ro : RangeOrders} {ms : MemStore} {counterparty : Address}
    {c : ConsensusChannel} (h : ro.getLedger ms counterparty = some c) :
    ms.consensusChannels.lookup c.id = some c ∧ MemStore.isLedgerWith counterparty c = true :=
  MemStore.getConsensusChannel_stored h

/-! ## statuses of new objectives -/

/-- the status of a new objective -/
def initialStatus (preApprove : Bool) : ObjectiveStatus :=
  if preApprove then .approved else .unapproved

theorem DirectFund.constructFromState_status {cr : Crypto} {preApprove : Bool} {s : State}
    {me : Address} {o : DirectFund.Objective}
    (h : DirectFund.constructFromState cr preApprove s me = .ok o) :
    o.status = initialStatus preApprove := by
  obtain ⟨-, -, h⟩ := Res.bind_eq_ok.1 h
  obtain ⟨-, h⟩ := failIf_bind_eq_ok.1 h
  obtain ⟨-, h⟩ := failIf_bind_eq_ok.1 h
  split at h
  · cases h
  · obtain ⟨_, -, h⟩ := Res.bind_eq_ok.1 h
    obtain ⟨_, -, h⟩ := Res.bind_eq_ok.1 h
    obtain ⟨_, -, h⟩ := Res.bind_eq_ok.1 h
    obtain ⟨_, -, hend⟩ := Res.bind_eq_ok.1 h
    cases hend
    rfl

theorem VirtualFund.constructFromState_status {cr : Crypto} {preApprove : Bool} {s : State}
    {me : Address} {left right : Option ConsensusChannel} {o : VirtualFund.Objective}
    (h : VirtualFund.constructFromState cr preApprove s me left right = .ok o) :
    o.status = initialStatus preApprove := by
  unfold VirtualFund.constructFromState at h
  split at h
  · cases h
  · obtain ⟨_, -, h⟩ := Res.bind_eq_ok.1 h
    obtain ⟨_, -, h⟩ := Res.bind_eq_ok.1 h
    obtain ⟨_, -, h⟩ := Res.bind_eq_ok.1 h
    obtain ⟨⟨_, _⟩, -, h⟩ := Res.bind_eq_ok.1 h
    obtain ⟨_, -, h⟩ := Res.bind_eq_ok.1 h
    obtain ⟨_, -, hend⟩ := Res.bind_eq_ok.1 h
    cases hend
    rfl

theorem VirtualDefund.newObjective_status {request : VirtualDefund.ObjectiveRequest}
    {preApprove : Bool} {me : Address} {getChannel : Destination → Option Channel}
    {getLedger : Address → Option ConsensusChannel} {o : VirtualDefund.Objective}
    (h : VirtualDefund.newObjective request preApprove me getChannel getLedger = .ok o) :
    o.status = initialStatus preApprove := by
  unfold VirtualDefund.newObjective at h
  split at h
  · cases h
  · obtain ⟨_, -, h⟩ := Res.bind_eq_ok.1 h
    obtain ⟨_, -, h⟩ := Res.bind_eq_ok.1 h
    obtain ⟨_, -, h⟩ := Res.bind_eq_ok.1 h
    obtain ⟨_, -, h⟩ := Res.bind_eq_ok.1 h
    obtain ⟨⟨_, _⟩, -, hend⟩ := Res.bind_eq_ok.1 h
    cases hend
    rfl

theorem DirectDefund.newObjective_status {cr : Crypto} {id : Destination} {preApprove : Bool}
    {get : Destination → Res ConsensusChannel} {o : DirectDefund.Objective}
    (h : DirectDefund.newObjective cr id preApprove get = .ok o) :
    o.status = initialStatus preApprove := by
  obtain ⟨_, -, h⟩ := Res.bind_eq_ok.1 h
  obtain ⟨-, h⟩ := failIf_bind_eq_ok.1 h
  obtain ⟨_, -, h⟩ := Res.bind_eq_ok.1 h
  obtain ⟨_, -, h⟩ := Res.bind_eq_ok.1 h
  obtain ⟨-, h⟩ := failIf_bind_eq_ok.1 h
  obtain ⟨_, -, h⟩ := Res.bind_eq_ok.1 h
  obtain ⟨_, -, hend⟩ := Res.bind_eq_ok.1 h
  cases hend
  rfl

/-! ## ledgers of new objectives -/

theorem VirtualFund.constructObjectiveFromState_ok {cr : Crypto} {s : State} {preapprove : Bool}
    {me : Address} {getLedger : Address → Option ConsensusChannel} {o : VirtualFund.Objective}
    (h : VirtualFund.constructObjectiveFromState cr s preapprove me getLedger = .ok o) :
    ∃ left right, VirtualFund.constructFromState cr preapprove s me left right = .ok o ∧
      (∀ c, left = some c → ∃ a, getLedger a = some c) ∧
      (∀ c, right = some c → ∃ a, getLedger a = some c) := by
  obtain ⟨alice, -, h⟩ := Res.bind_eq_ok.1 h
  obtain ⟨intermediary, -, h⟩ := Res.bind_eq_ok.1 h
  obtain ⟨bob, -, h⟩ := Res.bind_eq_ok.1 h
  split at h
  · cases h
  · split at h
    · split at h
      · cases h
      · next c hc =>
        exact ⟨some c, none, h, fun _ h => ⟨_, h ▸ hc⟩, fun _ h => nomatch h⟩
    · split at h
      · split at h
        · cases h
        · next c hc =>
          split at h
          · cases h
          · next c' hc' =>
            exact ⟨some c, some c', h, fun _ h => ⟨_, h ▸ hc⟩, fun _ h => ⟨_, h ▸ hc'⟩⟩
      · cases h

theorem VirtualDefund.findLedgers_ok {alice intermediary bob me : Address}
    {getLedger : Address → Option ConsensusChannel} {l r : Option ConsensusChannel}
    (h : VirtualDefund.findLedgers alice intermediary bob me getLedger = .ok (l, r)) :
    (∀ c, l = some c → ∃ a, getLedger a = some c) ∧ (∀ c, r = some c → ∃ a, getLedger a = some c) := by
  unfold VirtualDefund.findLedgers at h
  split at h
  · split at h
    · cases h
    · next c hc =>
      cases h
      exact ⟨fun _ h => (nomatch h), fun _ h => ⟨_, h ▸ hc⟩⟩
  · split at h
    · split at h
      · cases h
      · next c hc =>
        split at h
        · cases h
        · next c' hc' =>
          cases h
          exact ⟨fun _ h => ⟨_, h ▸ hc⟩, fun _ h => ⟨_, h ▸ hc'⟩⟩
    · split at h
      · split at h
        · cases h
        · next c hc =>
          cases h
          exact ⟨fun _ h => ⟨_, h ▸ hc⟩, fun _ h => nomatch h⟩
      · cases h

theorem VirtualDefund.newObjective_ledgers {request : VirtualDefund.ObjectiveRequest}
    {preApprove : Bool} {me : Address} {getChannel : Destination → Option Channel}
    {getLedger : Address → Option ConsensusChannel} {o : VirtualDefund.Objective}
    (h : VirtualDefund.newObjective request preApprove me getChannel getLedger = .ok o) :
    (∀ c, o.toMyLeft = some c → ∃ a, getLedger a = some c) ∧
      (∀ c, o.toMyRight = some c → ∃ a, getLedger a = some c) := by
  unfold VirtualDefund.newObjective at h
  split at h
  · cases h
  · obtain ⟨_, -, h⟩ := Res.bind_eq_ok.1 h
    obtain ⟨_, -, h⟩ := Res.bind_eq_ok.1 h
    obtain ⟨_, -, h⟩ := Res.bind_eq_ok.1 h
    obtain ⟨_, -, h⟩ := Res.bind_eq_ok.1 h
    obtain ⟨⟨_, _⟩, hfind, hend⟩ := Res.bind_eq_ok.1 h
    cases hend
    exact VirtualDefund.findLedgers_ok hfind

/-! ## channels of new objectives -/

theorem DirectDefund.createChannel_begun {cr : Crypto} {cc : ConsensusChannel} {c : Channel}
    (h : DirectDefund.createChannelFromConsensusChannel cr cc = .ok c) :
    ∃ c₀, Channel.new cr (cc.current.vars.asState cc.fp) cc.myIndex = .ok c₀ ∧
      Channel.Begun cr (cc.current.vars.asState cc.fp) c₀ c := by
  obtain ⟨supported, hsup, h⟩ := Res.bind_eq_ok.1 h
  obtain ⟨c₀, hnew, hadd⟩ := Res.bind_eq_ok.1 h
  rw [supportedSignedState_state hsup] at hnew
  have hnew : Channel.new cr (cc.current.vars.asState cc.fp) cc.myIndex = .ok c₀ := hnew
  have hbegun := Channel.begun_new hnew
  have hheld : Channel.Begun cr (cc.current.vars.asState cc.fp) c₀
      { c₀ with onChainFunding := cc.onChainFunding.clone } :=
    ⟨rfl, rfl, rfl, hbegun.pre, hbegun.post, hbegun.numbered⟩
  refine ⟨c₀, hnew, ?_⟩
  rw [← Meth.exec_eq_ok hadd]
  exact hheld.step (.addSignedState supported)

theorem DirectDefund.newObjective_channelId {cr : Crypto} {id : Destination} {preApprove : Bool}
    {get : Destination → Res ConsensusChannel} {o : DirectDefund.Objective}
    (h : DirectDefund.newObjective cr id preApprove get = .ok o) :
    ∃ cc c, get id = .ok cc ∧ DirectDefund.createChannelFromConsensusChannel cr cc = .ok c ∧
      c.clone cr = .ok o.c ∧ cc.fp.channelId cr = .ok o.c.id := by
  obtain ⟨cc, c, -, hcc, hc, -, hclone, -⟩ := newObjective_ok h
  obtain ⟨c₀, -, hbegun⟩ := createChannel_begun hc
  refine ⟨cc, c, hcc, hc, hclone, ?_⟩
  obtain ⟨hid, -⟩ := Channel.clone_ok hclone
  rw [hbegun.preFundState] at hid
  exact hid

/-! ## what a new objective is -/

section peer
variable (cr : Crypto) (me : Address) (ro : RangeOrders) (ms : MemStore)

/-- the channel that an objective of the kind for the state would own: that of the state, or, for a
closing objective, that of the fixed part of what is stored under it -/
def addressee (k : Kind) (s : State) : Res Destination :=
  match k with
  | .directFund => s.channelId cr
  | .virtualFund => s.channelId cr
  | .directDefund => do
    let channelId ← s.channelId cr
    let cc ← ms.getConsensusChannelById channelId
    cc.fp.channelId cr
  | .virtualDefund => do
    let channelId ← s.channelId cr
    let v ← ms.getChannelData channelId
    v.fixedPart.channelId cr

/-- the channel that an objective of the kind for the state would store: a new channel for the state, or
the ledger as a channel; virtual defunding stores none -/
def Fresh (k : Kind) (s : State) (c : Channel) : Prop :=
  match k with
  | .directFund => ∃ i, s.participants.findIdx? (fun v => decide (v = me)) = some i ∧
      Channel.new cr s i = .ok c
  | .virtualFund => ∃ i, VirtualFund.lastIndex me s.participants = some i ∧
      Channel.new cr s i = .ok c
  | .directDefund => ∃ d cc c', s.channelId cr = .ok d ∧ ms.consensusChannels.lookup d = some cc ∧
      DirectDefund.createChannelFromConsensusChannel cr cc = .ok c' ∧ c'.clone cr = .ok c
  | .virtualDefund => True

/-- a new objective: unapproved, its ledgers are in the store, and its channel is the fresh one -/
structure Made (k : Kind) (s : State) (o : Objective) : Prop where
  kind : o.kind = k
  status : o.getStatus = .unapproved
  owns : o.ownsChannel cr = addressee cr ms k s
  ledgers : ∀ c ∈ o.relatedLedgers, ms.consensusChannels.lookup c.id = some c
  channels : ∀ c ∈ o.relatedChannels, o.ownsChannel cr = .ok c.id ∧ Fresh cr me ms k s c
  fresh : ∀ c ∈ o.relatedChannels, ∀ c', Fresh cr me ms k s c' → c' = c

variable {cr me ro ms} {s : State}

theorem made_directFund {o : DirectFund.Objective}
    (h : DirectFund.constructFromState cr false s me = .ok o) :
    Made cr me ms .directFund s (.directFund o) := by
  obtain ⟨i, hi, hnew⟩ := (DirectFund.constructFromState_ok h).channel
  have hid := (Channel.new_ok hnew).1
  refine ⟨rfl, DirectFund.constructFromState_status h, hid.symm, fun c hc => absurd hc List.not_mem_nil,
    fun c hc => ?_, fun c hc c' hc' => ?_⟩
  · rw [List.mem_singleton.1 hc]
    exact ⟨rfl, i, hi, hnew⟩
  · rw [List.mem_singleton.1 hc]
    obtain ⟨j, hj, hnew'⟩ := hc'
    rw [hi] at hj
    cases hj
    rw [hnew] at hnew'
    exact (Except.ok.inj hnew').symm

theorem made_virtualFund {o : VirtualFund.Objective}
    (h : VirtualFund.constructObjectiveFromState cr s false me (ro.getLedger ms) = .ok o) :
    Made cr me ms .virtualFund s (.virtualFund o) := by
  obtain ⟨left, right, hmade, hleft, hright⟩ := VirtualFund.constructObjectiveFromState_ok h
  obtain ⟨hrole, -, -, -, -, hnew, -, hsides⟩ := VirtualFund.constructFromState_ok hmade
  have hid := (Channel.new_ok hnew).1
  have hstored {c : ConsensusChannel} (hc : ∃ a, ro.getLedger ms a = some c) :
      ms.consensusChannels.lookup c.id = some c := by
    obtain ⟨a, ha⟩ := hc
    exact (RangeOrders.getLedger_stored ha).1
  refine ⟨rfl, VirtualFund.constructFromState_status hmade, hid.symm, fun c hc => ?_, fun c hc => ?_,
    fun c hc c' hc' => ?_⟩
  · rw [MemStore.relatedLedgers_virtualFund, List.mem_append, Option.mem_toList, Option.mem_toList,
      Option.map_eq_some_iff, Option.map_eq_some_iff] at hc
    rcases hc with ⟨x, hx, rfl⟩ | ⟨x, hx, rfl⟩
    · exact hstored (hleft _ ((hsides .left).2 x hx).1)
    · exact hstored (hright _ ((hsides .right).2 x hx).1)
  · rw [MemStore.relatedChannels_virtualFund] at hc
    rw [List.mem_singleton.1 hc]
    exact ⟨rfl, o.myRole, hrole, hnew⟩
  · rw [MemStore.relatedChannels_virtualFund] at hc
    rw [List.mem_singleton.1 hc]
    obtain ⟨j, hj, hnew'⟩ := hc'
    rw [hrole] at hj
    cases hj
    rw [hnew] at hnew'
    exact (Except.ok.inj hnew').symm

theorem made_virtualDefund {o : VirtualDefund.Objective}
    (h : VirtualDefund.constructObjectiveFromState cr s false me ms.getChannelById
      (ro.getLedger ms) = .ok o) : Made cr me ms .virtualDefund s (.virtualDefund o) := by
  obtain ⟨channelId, paidToBob, hid, -, hnew⟩ := VirtualDefund.constructObjectiveFromState_ok h
  obtain ⟨v, hv, -, -, hfixed, -⟩ := VirtualDefund.newObjective_ok hnew
  obtain ⟨hl, hr⟩ := VirtualDefund.newObjective_ledgers hnew
  have hnone : (Objective.virtualDefund o).relatedChannels = [] := by
    obtain ⟨_, _, _, _, _, left, right, _⟩ := o
    cases left <;> cases right <;> rfl
  refine ⟨rfl, VirtualDefund.newObjective_status hnew, ?_, fun c hc => ?_, fun c hc => ?_,
    fun c hc => ?_⟩
  · show o.vFixed.channelId cr = (s.channelId cr >>= fun channelId =>
      ms.getChannelData channelId >>= fun v => v.fixedPart.channelId cr)
    have hv : ms.channels.lookup channelId = some v := hv
    rw [hid, Res.ok_bind, MemStore.getChannelData_eq_ok.2 hv, Res.ok_bind, hfixed]
  · rw [MemStore.relatedLedgers_virtualDefund, List.mem_append, Option.mem_toList,
      Option.mem_toList] at hc
    rcases hc with hc | hc
    · obtain ⟨a, ha⟩ := hl c hc
      exact (RangeOrders.getLedger_stored ha).1
    · obtain ⟨a, ha⟩ := hr c hc
      exact (RangeOrders.getLedger_stored ha).1
  · rw [hnone] at hc
    exact absurd hc List.not_mem_nil
  · rw [hnone] at hc
    exact absurd hc List.not_mem_nil

theorem made_directDefund {o : DirectDefund.Objective}
    (h : DirectDefund.constructObjectiveFromState cr s false ms.getConsensusChannelById = .ok o) :
    Made cr me ms .directDefund s (.directDefund o) := by
  obtain ⟨id, hid, hnew⟩ := DirectDefund.constructObjectiveFromState_ok h
  obtain ⟨cc, c, hcc, hc, hclone, hcid⟩ := DirectDefund.newObjective_channelId hnew
  refine ⟨rfl, DirectDefund.newObjective_status hnew, ?_, fun c hc => absurd hc List.not_mem_nil,
    fun x hx => ?_, fun x hx x' hx' => ?_⟩
  · show .ok o.c.id = (s.channelId cr >>= fun channelId =>
      ms.getConsensusChannelById channelId >>= fun cc => cc.fp.channelId cr)
    rw [hid, Res.ok_bind, hcc, Res.ok_bind, hcid]
  · rw [List.mem_singleton.1 hx]
    exact ⟨rfl, id, cc, c, hid, MemStore.getConsensusChannelById_eq_ok.1 hcc, hc, hclone⟩
  · rw [List.mem_singleton.1 hx]
    obtain ⟨d, cc', c', hd, hcc', hc', hclone'⟩ := hx'
    rw [hid] at hd
    cases hd
    rw [MemStore.getConsensusChannelById_eq_ok.1 hcc] at hcc'
    cases hcc'
    rw [hc] at hc'
    cases hc'
    rw [hclone] at hclone'
    exact (Except.ok.inj hclone').symm

/-- **the id picks the kind** -/
theorem made_of_construct {X : ObjectiveId} {ss : SignedState} {o : Objective}
    (h : constructObjectiveFromMessage cr me ro ms X ss = .ok o) :
    ∃ k : Kind, hasPrefix X k.start = true ∧ Made cr me ms k ss.state o := by
  unfold constructObjectiveFromMessage at h
  split at h
  · next hp =>
    obtain ⟨a, ha, rfl⟩ := Res.map_eq_ok.1 h
    exact ⟨.directFund, hp, made_directFund ha⟩
  · split at h
    · next hp =>
      obtain ⟨a, ha, rfl⟩ := Res.map_eq_ok.1 h
      exact ⟨.virtualFund, hp, made_virtualFund (Res.wrap_eq_ok.1 ha)⟩
    · split at h
      · next hp =>
        obtain ⟨a, ha, rfl⟩ := Res.map_eq_ok.1 h
        exact ⟨.virtualDefund, hp, made_virtualDefund (Res.wrap_eq_ok.1 ha)⟩
      · split at h
        · next hp =>
          obtain ⟨a, ha, rfl⟩ := Res.map_eq_ok.1 h
          exact ⟨.directDefund, hp, made_directDefund (Res.wrap_eq_ok.1 ha)⟩
        · cases h

theorem Made.set {k : Kind} {o : Objective} {i : ObjectiveId} (h : Made cr me ms k s o)
    (hid : o.id cr = .ok i) : MemStore.setObjective cr o ms = .ok () (ms.write i o) := by
  obtain ⟨d, hd⟩ := MemStore.exists_ownsChannel hid
  rw [MemStore.setObjective_run hid hd, if_neg]
  rw [h.status]
  exact fun h => nomatch h

theorem getOrCreateObjective_new {X : ObjectiveId} {ss : SignedState} {o : Objective}
    {ms' : MemStore} (hX : X ∉ ms.objectives) :
    getOrCreateObjective cr me ro X ss ms = .ok o ms' ↔
      ∃ i, constructObjectiveFromMessage cr me ro ms X ss = .ok o ∧ o.id cr = .ok i ∧
        ms' = ms.write i o := by
  have hget : ms.getObjectiveById cr X =
      .error (.err (.wrapBefore errNoSuchObjective (": " ++ X))) := by
    unfold MemStore.getObjectiveById
    rw [Finmap.lookup_eq_none.2 hX]
  have his : (Error.wrapBefore errNoSuchObjective (": " ++ X)).is errNoSuchObjective = true := by
    show (decide _ || decide (errNoSuchObjective = errNoSuchObjective)) = true
    rw [decide_eq_true rfl, Bool.or_true]
  unfold getOrCreateObjective
  rw [hget]
  show (if (Error.wrapBefore errNoSuchObjective (": " ++ X)).is errNoSuchObjective = true then _
    else _) = _ ↔ _
  rw [if_pos his]
  cases hc : constructObjectiveFromMessage cr me ro ms X ss with
  | error f =>
    constructor
    · intro h
      cases f <;> cases h
    · intro ⟨i, h, _⟩
      cases h
  | ok new =>
    rw [Meth.bind_ok (show (liftM (Res.wrap _ (Except.ok new)) : Meth MemStore Objective) ms =
      .ok new ms from rfl), Meth.bind_run]
    obtain ⟨k, -, hmade⟩ := made_of_construct hc
    cases hid : new.id cr with
    | error f =>
      have hset : MemStore.setObjective cr new ms = .error f ms := MemStore.setObjective_error hid
      constructor
      · intro h
        unfold Meth.wrap at h
        rw [hset] at h
        cases f <;> cases h
      · intro ⟨i, h, hi, _⟩
        cases h
        rw [hid] at hi
        cases hi
    | ok i =>
      unfold Meth.wrap
      rw [hmade.set hid]
      constructor
      · intro h
        cases h
        exact ⟨i, rfl, hid, rfl⟩
      · intro ⟨j, h, hj, hms⟩
        cases h
        rw [hid] at hj
        cases hj
        rw [hms]
        rfl

/-! ## what was in the store -/

/-- the objective has the id of the payload, and it is the only one that is new or changed; what was
there of channels, ledgers and owners is there -/
structure Framed (cr : Crypto) (ms ms' : MemStore) (X : ObjectiveId) (o : Objective) : Prop where
  id : o.id cr = .ok X
  added : X ∈ ms'.objectives
  objectives : ∀ i, i ≠ X → ms'.objectives.lookup i = ms.objectives.lookup i
  channels : ∀ d c, ms.channels.lookup d = some c → ms'.channels.lookup d = some c
  ledgers : ∀ d c, ms.consensusChannels.lookup d = some c → ms'.consensusChannels.lookup d = some c
  owners : ms'.channelToObjective = ms.channelToObjective

theorem Made.lookup_channels {k : Kind} {o : Objective} {i : ObjectiveId} {d : Destination}
    (h : Made cr me ms k s o) (hd : o.ownsChannel cr = .ok d) :
    (∀ x c, ms.channels.lookup x = some c → (ms.write i o).channels.lookup x = some c) ↔
      ∀ c, ms.channels.lookup d = some c → Fresh cr me ms k s c := by
  rw [MemStore.write_channels]
  constructor
  · intro hkept c hc
    have hafter := hkept d c hc
    by_cases hmem : ∃ a ∈ o.relatedChannels, a.id = d
    · obtain ⟨a, ha, had⟩ := exists_latest Channel.id hmem
      have hin : a ∈ o.relatedChannels := by
        obtain ⟨l₁, l₂, hl, -⟩ := ha
        rw [hl]
        exact List.mem_append_right _ List.mem_cons_self
      rw [← had, lookup_fill_latest _ _ ha, Option.some.injEq] at hafter
      rw [← hafter]
      exact (h.channels a hin).2
    · -- only virtual defunding has no channel of its own
      cases o with
      | directFund o => exact absurd ⟨o.c, List.mem_singleton_self _, Except.ok.inj hd⟩ hmem
      | directDefund o => exact absurd ⟨o.c, List.mem_singleton_self _, Except.ok.inj hd⟩ hmem
      | virtualFund o =>
        refine absurd ⟨o.v, ?_, Except.ok.inj hd⟩ hmem
        rw [MemStore.relatedChannels_virtualFund]
        exact List.mem_singleton_self _
      | virtualDefund o =>
        rw [← h.kind]
        trivial
  · intro hfresh x c hc
    by_cases hmem : ∃ a ∈ o.relatedChannels, a.id = x
    · obtain ⟨a, ha, hax⟩ := exists_latest Channel.id hmem
      have hin : a ∈ o.relatedChannels := by
        obtain ⟨l₁, l₂, hl, -⟩ := ha
        rw [hl]
        exact List.mem_append_right _ List.mem_cons_self
      have hown := (h.channels a hin).1
      rw [hd, hax] at hown
      cases hown
      rw [← hax, lookup_fill_latest _ _ ha, h.fresh a hin c (hfresh c hc)]
    · rw [lookup_fill_of_notMem _ _ fun a ha hax => hmem ⟨a, ha, hax⟩]
      exact hc

theorem Made.lookup_ledgers {k : Kind} {o : Objective} {i : ObjectiveId}
    (h : Made cr me ms k s o) : (ms.write i o).consensusChannels = ms.consensusChannels := by
  rw [MemStore.write_consensusChannels]
  refine (fill_eq_self_iff _ _).2 fun c hc => h.ledgers c ?_
  obtain ⟨l₁, l₂, hl, -⟩ := hc
  rw [hl]
  exact List.mem_append_right _ List.mem_cons_self

end peer

/-- **a peer's payload for a new objective**: what was in the store stays exactly when the payload has
the id that the new objective gets, and no other channel than a fresh one is stored where the objective
puts its own -/
theorem framed_iff (cr : Crypto) (me : Address) (ro : RangeOrders) (ms : MemStore) (X : ObjectiveId)
    (ss : SignedState) (hX : X ∉ ms.objectives) :
    (∀ o ms', getOrCreateObjective cr me ro X ss ms = .ok o ms' → Framed cr ms ms' X o) ↔
    ((∃ o i, constructObjectiveFromMessage cr me ro ms X ss = .ok o ∧ o.id cr = .ok i) →
      ∃ k d, addressee cr ms k ss.state = .ok d ∧ X = k.start ++ destinationString d ∧
        ∀ c, ms.channels.lookup d = some c → Fresh cr me ms k ss.state c) := by
  constructor
  · intro h ⟨o, i, hc, hid⟩
    obtain ⟨k, -, hmade⟩ := made_of_construct hc
    have hframe := h o (ms.write i o) ((getOrCreateObjective_new hX).2 ⟨i, hc, hid, rfl⟩)
    obtain ⟨d, hd, hXd⟩ := Objective.id_eq_ok.1 hframe.id
    rw [hmade.kind] at hXd
    exact ⟨k, d, hmade.owns ▸ hd, hXd, (hmade.lookup_channels hd).1 hframe.channels⟩
  · intro h o ms' hrun
    obtain ⟨i, hc, hid, rfl⟩ := (getOrCreateObjective_new hX).1 hrun
    obtain ⟨k, d, hd, hXd, hfresh⟩ := h ⟨o, i, hc, hid⟩
    obtain ⟨k', hstart', hmade⟩ := made_of_construct hc
    obtain rfl : k = k' := by
      rw [hXd, Kind.hasPrefix_start] at hstart'
      exact of_decide_eq_true hstart'
    have hown : o.ownsChannel cr = .ok d := hmade.owns.trans hd
    have hidX : o.id cr = .ok X := by
      refine Objective.id_eq_ok.2 ⟨d, hown, ?_⟩
      rw [hmade.kind]
      exact hXd
    rw [hid] at hidX
    cases hidX
    refine ⟨hid, ?_, fun j hj => ?_, (hmade.lookup_channels hown).2 hfresh, fun x c hx => ?_,
      MemStore.write_channelToObjective ..⟩
    · rw [MemStore.write_objectives]
      exact Finmap.mem_insert.2 (.inl rfl)
    · rw [MemStore.write_objectives, Finmap.lookup_insert_of_ne _ hj]
    · rw [hmade.lookup_ledgers]
      exact hx

/-! ## a state under a wrong id -/

theorem construct_directFund {cr : Crypto} {me : Address} {ro : RangeOrders} {ms : MemStore}
    {X : ObjectiveId} {ss : SignedState} {o : DirectFund.Objective}
    (hX : hasPrefix X DirectFund.objectivePrefix = true)
    (h : DirectFund.constructFromState cr false ss.state me = .ok o) :
    constructObjectiveFromMessage cr me ro ms X ss = .ok (.directFund o) := by
  unfold constructObjectiveFromMessage
  rw [if_pos hX, h]
  rfl

section directFund
variable {cr : Crypto} {me : Address} {ms : MemStore} {X : ObjectiveId} {o : DirectFund.Objective}
  (ro : RangeOrders) (ss : SignedState)

theorem overwrites_of_wrongId (hX : X ∉ ms.objectives)
    (hstart : hasPrefix X DirectFund.objectivePrefix = true)
    (h : DirectFund.constructFromState cr false ss.state me = .ok o) (hne : X ≠ o.id) :
    getOrCreateObjective cr me ro X ss ms =
      .ok (.directFund o) (ms.write o.id (.directFund o)) ∧
    ¬ Framed cr ms (ms.write o.id (.directFund o)) X (.directFund o) ∧
    (ms.write o.id (.directFund o)).objectives.lookup o.id = some o.marshalJSON := by
  refine ⟨(getOrCreateObjective_new hX).2 ⟨o.id, construct_directFund hstart h, rfl, rfl⟩,
    fun hframed => hne (Except.ok.inj hframed.id).symm, ?_⟩
  rw [MemStore.write_objectives, Finmap.lookup_insert]
  rfl

theorem accepted_of_id (h : DirectFund.constructFromState cr false ss.state me = .ok o)
    (hX : o.id ∉ ms.objectives) (hfree : ∀ c, ms.channels.lookup o.c.id ≠ some c) :
    getOrCreateObjective cr me ro o.id ss ms =
      .ok (.directFund o) (ms.write o.id (.directFund o)) ∧
    ∃ k d, addressee cr ms k ss.state = .ok d ∧ o.id = k.start ++ destinationString d ∧
      ∀ c, ms.channels.lookup d = some c → Fresh cr me ms k ss.state c := by
  obtain ⟨i, hi, hnew⟩ := (DirectFund.constructFromState_ok h).channel
  exact ⟨(getOrCreateObjective_new hX).2
      ⟨o.id, construct_directFund (hasPrefix_append _ _) h, rfl, rfl⟩,
    .directFund, o.c.id, (Channel.new_ok hnew).1, rfl, fun c hc => absurd hc (hfree c)⟩

end directFund

namespace Sample

def rangeOrders : RangeOrders := RangeOrders.ascending orders

/-- the objective that the first participant makes from the peer's prefund state -/
def peerObjective : DirectFund.Objective :=
  (DirectFund.constructFromState Crypto.plain false (fundingState fiveEach) 1).toOption.getD
    ⟨.rejected, channel, ∅, ∅, ∅, 0, false⟩

theorem new_peerObjective : DirectFund.constructFromState Crypto.plain false
    (fundingState fiveEach) 1 = .ok peerObjective := by decide +kernel

theorem peerObjective_channel : peerObjective.c.id = (fundingObjective fiveEach).c.id := by
  decide +kernel

theorem peerObjective_id : peerObjective.id = (fundingObjective fiveEach).id :=
  congrArg (fun d => DirectFund.objectivePrefix ++ destinationString d) peerObjective_channel

def peerState : SignedState := ⟨fundingState fiveEach, none⟩

/-- the store of the first participant, who has an approved objective for the channel -/
def running : MemStore :=
  (MemStore.setObjective Crypto.plain (.directFund (fundingObjective fiveEach))).after MemStore.empty

theorem stored_running : MemStore.Stored MemStore.empty running
    (.directFund (fundingObjective fiveEach)) (fundingObjective fiveEach).id
    (fundingObjective fiveEach).c.id :=
  MemStore.stored_of_accepted rfl rfl (MemStore.not_refused_of_free rfl rfl)

theorem start_ne_id (o : DirectFund.Objective) : DirectFund.objectivePrefix ≠ o.id := by
  intro h
  have hempty : DirectFund.objectivePrefix ++ "" = DirectFund.objectivePrefix ++
      destinationString o.c.id := h
  have hchars := congrArg String.toList (append_right_inj hempty)
  rw [toList_destinationString] at hchars
  cases hchars

theorem wrongId : DirectFund.objectivePrefix ∉ running.objectives := by
  rw [stored_running.objectives, Finmap.mem_insert]
  intro h
  rcases h with h | h
  · exact start_ne_id _ h
  · exact absurd h Finmap.notMem_empty

/-- the prefund state of another channel of the two, and its objective -/
def otherState : SignedState := ⟨{ fundingState fiveEach with channelNonce := some 8 }, none⟩

def otherObjective : DirectFund.Objective :=
  (DirectFund.constructFromState Crypto.plain false otherState.state 1).toOption.getD
    ⟨.rejected, channel, ∅, ∅, ∅, 0, false⟩

theorem new_otherObjective : DirectFund.constructFromState Crypto.plain false otherState.state 1 =
    .ok otherObjective := by decide +kernel

/-- the store of a client that closes a channel and still has its ledger -/
def closing : MemStore :=
  (MemStore.setObjective Crypto.plain (.directDefund closingObjective)).after
    (MemStore.empty.setConsensusChannel closingLedger)

theorem stored_closing : MemStore.Stored (MemStore.empty.setConsensusChannel closingLedger) closing
    (.directDefund closingObjective) closingObjective.id closingObjective.c.id :=
  MemStore.stored_of_accepted rfl rfl (MemStore.not_refused_of_free rfl rfl)

theorem otherId : otherObjective.id ∉ closing.objectives := by
  rw [stored_closing.objectives, Finmap.mem_insert]
  intro h
  rcases h with h | h
  · have hkind : Kind.directFund = .directDefund := Kind.start_inj h
    cases hkind
  · exact absurd h Finmap.notMem_empty

end Sample

open Sample in
/-- **a prefund state under a wrong id**: the objective that was running is replaced by a new one, and
nothing is stored under the id of the payload -/
theorem wrongId_overwrites : ∃ o ms',
    getOrCreateObjective Crypto.plain 1 rangeOrders DirectFund.objectivePrefix peerState running =
      .ok o ms' ∧ ¬ Framed Crypto.plain running ms' DirectFund.objectivePrefix o ∧
    running.objectives.lookup DirectFund.objectivePrefix = none ∧
    running.objectives.lookup peerObjective.id = some (fundingObjective fiveEach).marshalJSON ∧
    ms'.objectives.lookup peerObjective.id = some peerObjective.marshalJSON ∧
    (fundingObjective fiveEach).status = .approved ∧ peerObjective.status = .unapproved := by
  have hstart : hasPrefix DirectFund.objectivePrefix DirectFund.objectivePrefix = true := by decide
  obtain ⟨hrun, hframed, hlookup⟩ := overwrites_of_wrongId rangeOrders peerState
    wrongId hstart new_peerObjective (start_ne_id peerObjective)
  refine ⟨_, _, hrun, hframed, Finmap.lookup_eq_none.2 wrongId, ?_, hlookup, by decide +kernel,
    by decide +kernel⟩
  rw [peerObjective_id, stored_running.objectives, Finmap.lookup_insert]
  rfl

open Sample in
/-- a state under the id of its channel, next to an objective with its channel, its ledger and its
owner -/
theorem framed_five :
    closing.objectives.lookup closingObjective.id = some closingObjective.marshalJSON ∧
    closing.channels.lookup closingObjective.c.id = some closingObjective.c ∧
    closing.consensusChannels.lookup closingLedger.id = some closingLedger ∧
    closing.channelToObjective.lookup closingObjective.c.id = some closingObjective.id ∧
    ∃ o ms', getOrCreateObjective Crypto.plain 1 rangeOrders otherObjective.id otherState closing =
      .ok o ms' ∧ Framed Crypto.plain closing ms' otherObjective.id o := by
  have hiff := framed_iff Crypto.plain 1 rangeOrders closing otherObjective.id otherState otherId
  have hfree : closing.channels.lookup otherObjective.c.id = none := by decide +kernel
  obtain ⟨hrun, hcond⟩ := accepted_of_id rangeOrders otherState new_otherObjective otherId
    fun c hc => nomatch hfree.symm.trans hc
  refine ⟨?_, by decide +kernel, by decide +kernel, stored_closing.owner (by decide +kernel), _, _,
    hrun, hiff.2 (fun _ => hcond) _ _ hrun⟩
  rw [stored_closing.objectives, Finmap.lookup_insert]
  rfl

end Nitro
