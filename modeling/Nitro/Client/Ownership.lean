import Nitro.Lib.Runs
import Nitro.Protocols.Authorised
import Nitro.Client.MemStore

/-!
# Who owns a channel

`SetObjective` looks at the owner of the channel after it has written the objective and its channels,
so a refused objective is in the store all the same.

* `Atomic`              a call that fails leaves the store as it was;
* `Held`                the store already has what the call would write;
* `atomic_iff`          **a call is atomic unless it is refused and would write something new**;
* `Request`, `step`     the calls that change owners, and runs of them from the empty store;
* `Exclusive`           two approved objectives for one channel are stored only if the channel was
                        released after the one and before the other;
* `Ownership.run`          what a run of atomic calls keeps.
-/

set_option linter.unusedSectionVars false

namespace Nitro
open Go FinMap Runs
open Protocols (Objective Storable)

namespace MemStore
variable (cr : Crypto)

/-! ## failed calls -/

/-- if the call fails, nothing has changed -/
def Atomic (ms : MemStore) (obj : Objective) : Prop :=
  (∃ f, (setObjective cr obj).result ms = .error f) → (setObjective cr obj).after ms = ms

/-- the objective, its channel and its ledgers are in the store as they are; of two ledgers with one
id it is the second that counts -/
structure Held (ms : MemStore) (id : ObjectiveId) (obj : Objective) : Prop where
  objective : ms.objectives.lookup id = some obj.marshalJSON
  channels : ∀ c, Latest Channel.id obj.relatedChannels c → ms.channels.lookup c.id = some c
  ledgers : ∀ c, Latest ConsensusChannel.id obj.relatedLedgers c →
    ms.consensusChannels.lookup c.id = some c

theorem write_eq_self_iff {ms : MemStore} {id : ObjectiveId} {obj : Objective} :
    ms.write id obj = ms ↔ Held ms id obj := by
  have hjson : (ms.write id obj).objectives = ms.objectives ↔
      ms.objectives.lookup id = some obj.marshalJSON := by
    rw [write_objectives]
    constructor
    · intro h
      rw [← h, Finmap.lookup_insert]
    · intro h
      refine Finmap.ext_lookup fun x => ?_
      by_cases hx : x = id
      · rw [hx, Finmap.lookup_insert, h]
      · rw [Finmap.lookup_insert_of_ne _ hx]
  constructor
  · intro h
    refine ⟨hjson.1 (by rw [h]), (fill_eq_self_iff _ _).1 ?_, (fill_eq_self_iff _ _).1 ?_⟩
    · rw [← write_channels, h]
    · rw [← write_consensusChannels, h]
  · intro h
    refine MemStore.ext (hjson.2 h.objective) ?_ ?_ (write_channelToObjective ..)
    · rw [write_channels]
      exact (fill_eq_self_iff _ _).2 h.channels
    · rw [write_consensusChannels]
      exact (fill_eq_self_iff _ _).2 h.ledgers

/-- the call is not refused, or it would write what is there already -/
def Whole (ms : MemStore) (obj : Objective) : Prop :=
  Refused cr ms obj → ∀ id, obj.id cr = .ok id → Held ms id obj

variable {cr} in
theorem atomic_iff {ms : MemStore} {obj : Objective} : Atomic cr ms obj ↔ Whole cr ms obj := by
  cases hid : obj.id cr with
  | error f =>
    refine ⟨fun _ _ id hok => ?_, fun _ _ => Meth.after_error (setObjective_error hid)⟩
    rw [hid] at hok
    cases hok
  | ok id =>
    obtain ⟨channelId, hc⟩ := exists_ownsChannel hid
    unfold Atomic Whole
    rcases setObjective_cases cr ms hid hc with ⟨hr, e, hrun⟩ | ⟨hr, -, -, hrun⟩ | ⟨hr, -, hrun⟩
    · rw [Meth.after_error hrun, write_eq_self_iff]
      constructor
      · intro h _ id' hid'
        rw [hid] at hid'
        cases hid'
        exact h ⟨.err e, by unfold Meth.result; rw [hrun]⟩
      · exact fun h _ => h hr id hid
    · refine ⟨fun _ hr' => absurd hr' hr, fun _ ⟨f, hf⟩ => ?_⟩
      unfold Meth.result at hf
      rw [hrun] at hf
      cases hf
    · refine ⟨fun _ hr' => absurd hr' hr, fun _ ⟨f, hf⟩ => ?_⟩
      unfold Meth.result at hf
      rw [hrun] at hf
      cases hf

/-! ## runs -/

inductive Request where
  | set (obj : Objective)
  | release (channelId : Destination)

def step (ms : MemStore) : Request → MemStore
  | .set obj => (setObjective cr obj).after ms
  | .release channelId => ms.releaseChannelFromOwnership channelId

/-- the condition on a request: a release is never a problem -/
def WholeRequest (ms : MemStore) : Request → Prop
  | .set obj => Whole cr ms obj
  | .release _ => True

/-- `i` is stored, and later the channel is released -/
def ReleasedAfter (channelId : Destination) (i : ObjectiveId) (l : List Request) : Prop :=
  ∃ l₁ o l₂, l = l₁ ++ .set o :: l₂ ∧ o.id cr = .ok i ∧ .release channelId ∈ l₂

/-- `i` is stored, later the channel is released, and later `j` is stored -/
def ReleasedBetween (channelId : Destination) (i j : ObjectiveId) (l : List Request) : Prop :=
  ∃ l₁ o l₂ o' l₃, l = l₁ ++ .set o :: (l₂ ++ .set o' :: l₃) ∧ o.id cr = .ok i ∧
    o'.id cr = .ok j ∧ .release channelId ∈ l₂

structure Approved (ms : MemStore) (o : Objective) (i : ObjectiveId) (channelId : Destination) :
    Prop where
  id : o.id cr = .ok i
  owns : o.ownsChannel cr = .ok channelId
  status : o.getStatus = .approved
  stored : ms.objectives.lookup i = some o.marshalJSON

/-- every owner is a stored objective -/
def OwnersStored (ms : MemStore) : Prop :=
  ∀ channelId i, ms.channelToObjective.lookup channelId = some i → i ∈ ms.objectives

/-- approved objectives for one channel, unless it was released in between -/
def Exclusive (l : List Request) (ms : MemStore) : Prop :=
  ∀ o o' i i' channelId, Approved cr ms o i channelId → Approved cr ms o' i' channelId → i ≠ i' →
    ReleasedBetween cr channelId i i' l ∨ ReleasedBetween cr channelId i' i l

structure Ownership (l : List Request) (ms : MemStore) : Prop where
  owners : OwnersStored ms
  /-- what is stored was set -/
  set : ∀ i ∈ ms.objectives, ∃ o, .set o ∈ l ∧ o.id cr = .ok i
  /-- an approved objective owns its channel, or lost it by a release -/
  owned : ∀ o i channelId, Approved cr ms o i channelId →
    ms.channelToObjective.lookup channelId = some i ∨ ReleasedAfter cr channelId i l
  exclusive : Exclusive cr l ms

section steps
variable {cr} {l : List Request} {ms : MemStore} {r : Request}

theorem ReleasedAfter.snoc {channelId : Destination} {i : ObjectiveId}
    (h : ReleasedAfter cr channelId i l) : ReleasedAfter cr channelId i (l ++ [r]) := by
  obtain ⟨l₁, o, l₂, rfl, ho, hrel⟩ := h
  refine ⟨l₁, o, l₂ ++ [r], ?_, ho, List.mem_append_left _ hrel⟩
  rw [List.append_assoc]
  rfl

theorem ReleasedBetween.snoc {channelId : Destination} {i j : ObjectiveId}
    (h : ReleasedBetween cr channelId i j l) : ReleasedBetween cr channelId i j (l ++ [r]) := by
  obtain ⟨l₁, o, l₂, o', l₃, rfl, ho, ho', hrel⟩ := h
  refine ⟨l₁, o, l₂, o', l₃ ++ [r], ?_, ho, ho', hrel⟩
  rw [List.append_assoc, List.cons_append, List.append_assoc]
  rfl

theorem ReleasedAfter.then_set {channelId : Destination} {i j : ObjectiveId} {o' : Objective}
    (h : ReleasedAfter cr channelId i l) (ho' : o'.id cr = .ok j) :
    ReleasedBetween cr channelId i j (l ++ [.set o']) := by
  obtain ⟨l₁, o, l₂, rfl, ho, hrel⟩ := h
  refine ⟨l₁, o, l₂, o', [], ?_, ho, ho', hrel⟩
  rw [List.append_assoc]
  rfl

theorem Ownership.snoc (h : Ownership cr l ms) : Ownership cr (l ++ [r]) ms where
  owners := h.owners
  set i hi := by
    obtain ⟨o, hmem, ho⟩ := h.set i hi
    exact ⟨o, List.mem_append_left _ hmem, ho⟩
  owned o i channelId ha := (h.owned o i channelId ha).imp_right .snoc
  exclusive o o' i i' channelId ha ha' hne :=
    (h.exclusive o o' i i' channelId ha ha' hne).imp .snoc .snoc

theorem Ownership.release (h : Ownership cr l ms) (channelId : Destination) :
    Ownership cr (l ++ [.release channelId]) (ms.releaseChannelFromOwnership channelId) where
  owners c i hi := h.owners c i (lookup_of_erase hi).2
  set := (h.snoc (r := .release channelId)).set
  owned o i c ha := by
    have hstored : Approved cr ms o i c := ⟨ha.id, ha.owns, ha.status, ha.stored⟩
    by_cases hc : c = channelId
    · subst hc
      obtain ⟨x, hmem, hx⟩ := h.set i (Finmap.mem_of_lookup_eq_some ha.stored)
      obtain ⟨l₁, l₂, rfl⟩ := List.append_of_mem hmem
      refine .inr ⟨l₁, x, l₂ ++ [.release c], ?_, hx, List.mem_append_right _ (by simp)⟩
      rw [List.append_assoc]
      rfl
    · rcases h.owned o i c hstored with hown | hrel
      · left
        show (ms.channelToObjective.erase channelId).lookup c = some i
        rw [Finmap.lookup_erase_ne hc, hown]
      · exact .inr hrel.snoc
  exclusive o o' i i' c ha ha' hne :=
    (h.exclusive o o' i i' c ⟨ha.id, ha.owns, ha.status, ha.stored⟩
      ⟨ha'.id, ha'.owns, ha'.status, ha'.stored⟩ hne).imp .snoc .snoc

/-- what an accepted call leaves: the objective under its id, its channel with the objective as owner
if it is approved, and every other owner as it was -/
structure Stored (ms ms' : MemStore) (obj : Objective) (id : ObjectiveId) (channelId : Destination) :
    Prop where
  objectives : ms'.objectives = ms.objectives.insert id obj.marshalJSON
  owner : obj.getStatus = .approved → ms'.channelToObjective.lookup channelId = some id
  free : obj.getStatus = .approved → ∀ i, ms.channelToObjective.lookup channelId = some i → i = id
  others : ∀ c i, ms'.channelToObjective.lookup c = some i →
    ms.channelToObjective.lookup c = some i ∨ i = id
  kept : ∀ c i, ms.channelToObjective.lookup c = some i → ms'.channelToObjective.lookup c = some i

theorem stored_of_accepted {obj : Objective} {id : ObjectiveId} {channelId : Destination}
    (hid : obj.id cr = .ok id) (hc : obj.ownsChannel cr = .ok channelId)
    (hr : ¬ Refused cr ms obj) :
    Stored ms ((setObjective cr obj).after ms) obj id channelId := by
  rcases setObjective_cases cr ms hid hc with ⟨hr', -⟩ | ⟨-, -, hnone, hrun⟩ | ⟨-, howner, hrun⟩
  · exact absurd hr' hr
  · rw [Meth.after_ok hrun]
    refine ⟨write_objectives .., fun _ => Finmap.lookup_insert _, fun _ i hi => ?_,
      fun c i hi => ?_, fun c i hi => ?_⟩
    · rw [hnone] at hi
      cases hi
    · rcases lookup_insert_cases hi with ⟨-, rfl⟩ | ⟨-, hi⟩
      · exact .inr rfl
      · rw [write_channelToObjective] at hi
        exact .inl hi
    · have hne : c ≠ channelId := by
        intro h
        rw [h, hnone] at hi
        cases hi
      show ((ms.write id obj).channelToObjective.insert channelId id).lookup c = some i
      rw [Finmap.lookup_insert_of_ne _ hne, write_channelToObjective, hi]
  · rw [Meth.after_ok hrun]
    refine ⟨write_objectives .., fun ha => ?_, fun ha i hi => ?_, fun c i hi => ?_,
      fun c i hi => ?_⟩
    · rw [write_channelToObjective]
      exact howner ha
    · rw [howner ha] at hi
      cases hi
      rfl
    · rw [write_channelToObjective] at hi
      exact .inl hi
    · rw [write_channelToObjective]
      exact hi

theorem Stored.approved_cases {ms' : MemStore} {obj o : Objective} {id i : ObjectiveId}
    {channelId c : Destination} (h : Stored ms ms' obj id channelId) (hid : obj.id cr = .ok id)
    (hc : obj.ownsChannel cr = .ok channelId) (ha : Approved cr ms' o i c) :
    (i = id ∧ c = channelId ∧ obj.getStatus = .approved) ∨ (i ≠ id ∧ Approved cr ms o i c) := by
  have hstored := ha.stored
  rw [h.objectives] at hstored
  rcases lookup_insert_cases hstored with ⟨rfl, hjson⟩ | ⟨hne, hold⟩
  · refine .inl ⟨rfl, Objective.ownsChannel_eq ha.id hid ha.owns hc, ?_⟩
    rw [← Objective.status_of_marshalJSON hjson, ha.status]
  · exact .inr ⟨hne, ha.id, ha.owns, ha.status, hold⟩

theorem Ownership.stored (h : Ownership cr l ms) {ms' : MemStore} {obj : Objective} {id : ObjectiveId}
    {channelId : Destination} (hs : Stored ms ms' obj id channelId) (hid : obj.id cr = .ok id)
    (hc : obj.ownsChannel cr = .ok channelId) : Ownership cr (l ++ [.set obj]) ms' where
  owners c i hi := by
    rw [hs.objectives, Finmap.mem_insert]
    rcases hs.others c i hi with hold | rfl
    · exact .inr (h.owners c i hold)
    · exact .inl rfl
  set i hi := by
    rw [hs.objectives, Finmap.mem_insert] at hi
    rcases hi with rfl | hi
    · exact ⟨obj, List.mem_append_right _ (by simp), hid⟩
    · exact (h.snoc (r := .set obj)).set i hi
  owned o i c ha := by
    rcases hs.approved_cases hid hc ha with ⟨rfl, rfl, happroved⟩ | ⟨-, hold⟩
    · exact .inl (hs.owner happroved)
    · exact (h.owned o i c hold).imp (hs.kept c i) .snoc
  exclusive o o' i i' c ha ha' hne := by
    -- the one that was there before is no longer the owner, or the call would have been refused
    have hlost {o : Objective} {i : ObjectiveId} (hne : i ≠ id) (hold : Approved cr ms o i channelId)
        (happroved : obj.getStatus = .approved) : ReleasedAfter cr channelId i l := by
      rcases h.owned o i channelId hold with hown | hrel
      · exact absurd (hs.free happroved i hown) hne
      · exact hrel
    rcases hs.approved_cases hid hc ha with ⟨rfl, rfl, happroved⟩ | ⟨hi, hold⟩
    · rcases hs.approved_cases hid hc ha' with ⟨rfl, -, -⟩ | ⟨hi', hold'⟩
      · exact absurd rfl hne
      · exact .inr ((hlost hi' hold' happroved).then_set hid)
    · rcases hs.approved_cases hid hc ha' with ⟨rfl, rfl, happroved⟩ | ⟨hi', hold'⟩
      · exact .inl ((hlost hi hold happroved).then_set hid)
      · exact (h.exclusive o o' i i' c hold hold' hne).imp .snoc .snoc

/-- **one request that meets the condition** -/
theorem Ownership.step (h : Ownership cr l ms) (hr : WholeRequest cr ms r) :
    Ownership cr (l ++ [r]) (step cr ms r) := by
  cases r with
  | release channelId => exact h.release channelId
  | set obj =>
    show Ownership cr (l ++ [.set obj]) ((setObjective cr obj).after ms)
    cases hid : obj.id cr with
    | error f =>
      rw [Meth.after_error (setObjective_error hid)]
      exact h.snoc
    | ok id =>
      obtain ⟨channelId, hc⟩ := exists_ownsChannel hid
      by_cases hrefused : Refused cr ms obj
      · obtain ⟨-, e, hrun⟩ | ⟨hn, -⟩ | ⟨hn, -⟩ := setObjective_cases cr ms hid hc
        · rw [Meth.after_error hrun, write_eq_self_iff.2 (hr hrefused id hid)]
          exact h.snoc
        · exact absurd hrefused hn
        · exact absurd hrefused hn
      · exact h.stored (stored_of_accepted hid hc hrefused) hid hc

theorem Ownership.empty : Ownership cr [] MemStore.empty where
  owners c i h := by cases h
  set i h := absurd h (Finmap.notMem_empty)
  owned o i c ha := by cases ha.stored
  exclusive o o' i i' c ha := by cases ha.stored

/-- **a run of requests that all meet the condition** -/
theorem Ownership.run (h : Along (MemStore.step cr) (WholeRequest cr) MemStore.empty l) :
    Ownership cr l (Runs.run (MemStore.step cr) MemStore.empty l) := by
  induction l using List.reverseRecOn with
  | nil => exact Ownership.empty
  | append_singleton l r ih =>
    obtain ⟨hl, hr, -⟩ := h.of_append
    rw [run_append]
    exact (ih hl).step hr

end steps

/-- **failed calls and exclusive owners**: a call that fails leaves the store as it was exactly when it
is not refused or would have written what is there already, and in every run of such calls the owners
are stored objectives and two approved objectives share a channel only after a release in between -/
theorem setObjective_exclusive :
    (∀ ms obj, Atomic cr ms obj ↔ Whole cr ms obj) ∧
    ∀ l, Along (step cr) (WholeRequest cr) MemStore.empty l →
      OwnersStored (run (step cr) MemStore.empty l) ∧
      Exclusive cr l (run (step cr) MemStore.empty l) :=
  ⟨fun _ _ => atomic_iff, fun _ h => ⟨(Ownership.run h).owners, (Ownership.run h).exclusive⟩⟩

/-! ## Alice funds and defunds a channel -/

variable {cr} in
theorem not_refused_of_free {ms : MemStore} {obj : Objective} {channelId : Destination}
    (hc : obj.ownsChannel cr = .ok channelId)
    (hfree : ms.channelToObjective.lookup channelId = none) : ¬ Refused cr ms obj := by
  intro ⟨_, _, d, prevOwner, _, hd, hlookup, _⟩
  rw [hc] at hd
  cases hd
  rw [hfree] at hlookup
  cases hlookup

theorem released_free (ms : MemStore) (channelId : Destination) :
    (step cr ms (.release channelId)).channelToObjective.lookup channelId = none :=
  Finmap.lookup_erase channelId ms.channelToObjective

end MemStore

namespace Sample
open MemStore

/-- the ids of the two objectives for Alice's virtual channel -/
def fundsId : ObjectiveId := VirtualFund.objectivePrefix ++ destinationString virtualId
def defundsId : ObjectiveId := VirtualDefund.objectivePrefix ++ destinationString virtualId

theorem fundsId_ne : fundsId ≠ defundsId := by
  intro h
  have hstart : Protocols.Kind.virtualFund.start ++ destinationString virtualId =
      Protocols.Kind.virtualDefund.start ++ destinationString virtualId := h
  cases Protocols.Kind.start_inj hstart

theorem owns_aliceFunds :
    (Objective.virtualFund aliceFunds).ownsChannel Crypto.plain = .ok virtualId := by
  decide +kernel

theorem owns_aliceDefunds :
    (Objective.virtualDefund aliceDefunds).ownsChannel Crypto.plain = .ok virtualId := by
  decide +kernel

theorem id_aliceFunds : (Objective.virtualFund aliceFunds).id Crypto.plain = .ok fundsId :=
  Objective.id_eq_ok.2 ⟨virtualId, owns_aliceFunds, rfl⟩

theorem id_aliceDefunds : (Objective.virtualDefund aliceDefunds).id Crypto.plain = .ok defundsId :=
  Objective.id_eq_ok.2 ⟨virtualId, owns_aliceDefunds, rfl⟩

theorem approved_aliceFunds : aliceFunds.status = .approved := by decide +kernel
theorem approved_aliceDefunds : aliceDefunds.status = .approved := by decide +kernel

/-- the store while Alice's channel is being funded -/
def fundingStore : MemStore := (setObjective Crypto.plain (.virtualFund aliceFunds)).after MemStore.empty

theorem stored_aliceFunds :
    Stored MemStore.empty fundingStore (.virtualFund aliceFunds) fundsId virtualId :=
  stored_of_accepted id_aliceFunds owns_aliceFunds (not_refused_of_free owns_aliceFunds rfl)

end Sample

open Sample MemStore in
/-- **a request to defund while the channel is being funded**: the call is refused and the objective is
stored, so that there are two approved objectives for the channel -/
theorem refused_defund_stored :
    (∃ f, (setObjective Crypto.plain (.virtualDefund aliceDefunds)).result fundingStore = .error f) ∧
    (setObjective Crypto.plain (.virtualDefund aliceDefunds)).after fundingStore ≠ fundingStore ∧
    ¬ Exclusive Crypto.plain [.set (.virtualFund aliceFunds), .set (.virtualDefund aliceDefunds)]
      (run (step Crypto.plain) MemStore.empty
        [.set (.virtualFund aliceFunds), .set (.virtualDefund aliceDefunds)]) := by
  have howner := stored_aliceFunds.owner approved_aliceFunds
  have hrefused : Refused Crypto.plain fundingStore (.virtualDefund aliceDefunds) :=
    ⟨approved_aliceDefunds, defundsId, virtualId, fundsId, id_aliceDefunds, owns_aliceDefunds,
      howner, fundsId_ne⟩
  obtain ⟨-, e, hrun⟩ | ⟨hn, -⟩ | ⟨hn, -⟩ :=
    setObjective_cases Crypto.plain fundingStore id_aliceDefunds owns_aliceDefunds
  · have hafter := Meth.after_error hrun
    refine ⟨⟨.err e, by unfold Meth.result; rw [hrun]⟩, fun h => ?_, fun h => ?_⟩
    · have hnew : fundingStore.objectives.lookup defundsId = some aliceDefunds.marshalJSON := by
        rw [← h, hafter, write_objectives, Finmap.lookup_insert]
        rfl
      rw [stored_aliceFunds.objectives, Finmap.lookup_insert_of_ne _ fundsId_ne.symm] at hnew
      cases hnew
    · have hfund : Approved Crypto.plain (fundingStore.write defundsId (.virtualDefund aliceDefunds))
          (.virtualFund aliceFunds) fundsId virtualId := by
        refine ⟨id_aliceFunds, owns_aliceFunds, approved_aliceFunds, ?_⟩
        rw [write_objectives, Finmap.lookup_insert_of_ne _ fundsId_ne,
          stored_aliceFunds.objectives, Finmap.lookup_insert]
      have hdefund : Approved Crypto.plain (fundingStore.write defundsId (.virtualDefund aliceDefunds))
          (.virtualDefund aliceDefunds) defundsId virtualId := by
        refine ⟨id_aliceDefunds, owns_aliceDefunds, approved_aliceDefunds, ?_⟩
        rw [write_objectives, Finmap.lookup_insert]
      have hfinal : run (step Crypto.plain) MemStore.empty
          [.set (.virtualFund aliceFunds), .set (.virtualDefund aliceDefunds)] =
          fundingStore.write defundsId (.virtualDefund aliceDefunds) := by
        unfold run
        rw [List.foldl_cons, List.foldl_cons, List.foldl_nil]
        exact hafter
      have hnever (i j : ObjectiveId) : ¬ ReleasedBetween Crypto.plain virtualId i j
          [.set (.virtualFund aliceFunds), .set (.virtualDefund aliceDefunds)] := by
        intro ⟨l₁, o, l₂, o', l₃, hl, _, _, hrel⟩
        have hmem : Request.release virtualId ∈
            [Request.set (.virtualFund aliceFunds), .set (.virtualDefund aliceDefunds)] := by
          rw [hl]
          simp [hrel]
        simp at hmem
      rw [hfinal] at h
      rcases h _ _ _ _ _ hfund hdefund fundsId_ne with h | h
      · exact hnever _ _ h
      · exact hnever _ _ h
  · exact absurd hrefused hn
  · exact absurd hrefused hn

open Sample MemStore in
/-- with a release in between both calls are accepted -/
theorem setObjective_exclusive_alice :
    Exclusive Crypto.plain [.set (.virtualFund aliceFunds), .release virtualId,
      .set (.virtualDefund aliceDefunds)] (run (step Crypto.plain) MemStore.empty
        [.set (.virtualFund aliceFunds), .release virtualId,
          .set (.virtualDefund aliceDefunds)]) := by
  refine ((setObjective_exclusive Crypto.plain).2 _ ?_).2
  refine ⟨?_, trivial, ?_, trivial⟩
  · exact fun h => absurd h (not_refused_of_free owns_aliceFunds rfl)
  · refine fun h => absurd h (not_refused_of_free owns_aliceDefunds ?_)
    exact released_free _ _ _

end Nitro
