import Nitro.Protocols.Serde

/-!
# The store of the client

`MemStore` of the package `store`, with the objectives of the four protocols behind one interface.  The
source keeps JSON in its tables.  The JSON of a channel reads back as the channel
(`Channel.json.round`, `ConsensusChannel.json.round`), so the tables of channels have the channels
themselves; the JSON of an objective lacks the data of its channels and stays JSON.  The order in which
a table is ranged over is not fixed, and is given as a list of its keys.

* `Protocols.Objective`                  the interface, by its four implementations;
* `MemStore`                             four tables; every channel is stored under its own id;
* `setObjective`                         writes the objective, then the channels it refers to, and
                                         looks last at who owns the channel;
* `getObjectiveById`                     reads an objective and fills in its channels;
* `setObjective_run`                     **what `setObjective` does**: one equation for all four kinds.
-/

set_option linter.unusedSectionVars false

namespace Nitro
open Go FinMap Wire

/-! ## texts of destinations -/

theorem destinationString_inj {a b : Destination}
    (h : destinationString a = destinationString b) : a = b := by
  rcases BitVec.lt_trichotomy a b with hab | hab | hab
  · have hlt := (destinationString_lt_iff a b).2 hab
    rw [h] at hlt
    exact absurd hlt (String.lt_irrefl _)
  · exact hab
  · have hlt := (destinationString_lt_iff b a).2 hab
    rw [h] at hlt
    exact absurd hlt (String.lt_irrefl _)

/-- `strings.HasPrefix` -/
def hasPrefix (s start : String) : Bool := start.toList.isPrefixOf s.toList

theorem hasPrefix_append (start s : String) : hasPrefix (start ++ s) start = true := by
  unfold hasPrefix
  rw [String.toList_append, List.isPrefixOf_iff_prefix]
  exact List.prefix_append _ _

theorem append_right_inj {start s t : String} (h : start ++ s = start ++ t) : s = t := by
  have hl := congrArg String.toList h
  rw [String.toList_append, String.toList_append, List.append_cancel_left_eq] at hl
  exact String.toList_inj.1 hl

/-! ## objectives -/

namespace Protocols

/-- the four implementations of the interface `Objective` -/
inductive Kind where
  | directFund
  | directDefund
  | virtualFund
  | virtualDefund
  deriving DecidableEq

/-- the text that the ids of a kind start with -/
def Kind.start : Kind → String
  | directFund => DirectFund.objectivePrefix
  | directDefund => DirectDefund.objectivePrefix
  | virtualFund => VirtualFund.objectivePrefix
  | virtualDefund => VirtualDefund.objectivePrefix

theorem Kind.take_start (k : Kind) : 8 ≤ k.start.toList.length ∧
    ∀ k' : Kind, k.start.toList.take 8 = k'.start.toList.take 8 → k = k' := by
  refine ⟨by cases k <;> decide, fun k' => ?_⟩
  cases k <;> cases k' <;> decide

theorem Kind.take_append (k : Kind) (s : String) :
    (k.start ++ s).toList.take 8 = k.start.toList.take 8 := by
  rw [String.toList_append, List.take_append_of_le_length k.take_start.1]

theorem Kind.start_inj {k k' : Kind} {s s' : String} (h : k.start ++ s = k'.start ++ s') :
    k = k' := by
  refine k.take_start.2 k' ?_
  rw [← k.take_append s, ← k'.take_append s', h]

theorem Kind.hasPrefix_start (k k' : Kind) (s : String) :
    hasPrefix (k.start ++ s) k'.start = decide (k = k') := by
  by_cases h : k = k'
  · subst h
    rw [hasPrefix_append, decide_eq_true rfl]
  · rw [decide_eq_false h]
    refine Bool.eq_false_iff.2 fun hp => h ?_
    obtain ⟨t, ht⟩ := List.isPrefixOf_iff_prefix.1 hp
    refine k.take_start.2 k' ?_
    rw [← k.take_append s, ← ht, List.take_append_of_le_length k'.take_start.1]

/-- a channel that is stored next to an objective -/
inductive Storable where
  | channel (c : Channel)
  | consensusChannel (c : ConsensusChannel)
  deriving DecidableEq

def Storable.channel? : Storable → Option Channel
  | .channel c => some c
  | .consensusChannel _ => none

def Storable.consensusChannel? : Storable → Option ConsensusChannel
  | .channel _ => none
  | .consensusChannel c => some c

inductive Objective where
  | directFund (o : DirectFund.Objective)
  | directDefund (o : DirectDefund.Objective)
  | virtualFund (o : VirtualFund.Objective)
  | virtualDefund (o : VirtualDefund.Objective)
  deriving DecidableEq

namespace Objective
variable (cr : Crypto)

/-- `virtualdefund` computes the id of the virtual channel anew on every call -/
def id : Objective → Res ObjectiveId
  | directFund o => .ok o.id
  | directDefund o => .ok o.id
  | virtualFund o => .ok o.id
  | virtualDefund o => o.id cr

def getStatus : Objective → ObjectiveStatus
  | directFund o => o.status
  | directDefund o => o.status
  | virtualFund o => o.status
  | virtualDefund o => o.status

def ownsChannel : Objective → Res Destination
  | directFund o => .ok o.c.id
  | directDefund o => .ok o.c.id
  | virtualFund o => .ok o.v.id
  | virtualDefund o => o.vId cr

def related : Objective → List Storable
  | directFund o => [.channel o.c]
  | directDefund o => [.channel o.c]
  | virtualFund o => .channel o.v ::
      ((o.toMyLeft.map fun c => .consensusChannel c.channel).toList ++
        (o.toMyRight.map fun c => .consensusChannel c.channel).toList)
  | virtualDefund o =>
      (o.toMyLeft.map .consensusChannel).toList ++ (o.toMyRight.map .consensusChannel).toList

/-- the channels among them, and the ledgers -/
def relatedChannels (o : Objective) : List Channel := o.related.filterMap Storable.channel?

def relatedLedgers (o : Objective) : List ConsensusChannel :=
  o.related.filterMap Storable.consensusChannel?

def marshalJSON : Objective → Json
  | directFund o => o.marshalJSON
  | directDefund o => o.marshalJSON
  | virtualFund o => o.marshalJSON
  | virtualDefund o => o.marshalJSON

def kind : Objective → Kind
  | directFund _ => .directFund
  | directDefund _ => .directDefund
  | virtualFund _ => .virtualFund
  | virtualDefund _ => .virtualDefund

variable {cr}

theorem id_eq (o : Objective) :
    o.id cr = (o.ownsChannel cr >>= fun d => .ok (o.kind.start ++ destinationString d)) := by
  cases o <;> rfl

theorem id_eq_ok {o : Objective} {i : ObjectiveId} :
    o.id cr = .ok i ↔ ∃ d, o.ownsChannel cr = .ok d ∧ i = o.kind.start ++ destinationString d := by
  rw [id_eq]
  constructor
  · intro h
    obtain ⟨d, hd, h⟩ := Res.bind_eq_ok.1 h
    cases h
    exact ⟨d, hd, rfl⟩
  · intro ⟨d, hd, h⟩
    rw [hd, h]
    rfl

/-- **the id tells which channel an objective owns** -/
theorem ownsChannel_eq {o o' : Objective} {i : ObjectiveId} {d d' : Destination}
    (ho : o.id cr = .ok i) (ho' : o'.id cr = .ok i) (hd : o.ownsChannel cr = .ok d)
    (hd' : o'.ownsChannel cr = .ok d') : d = d' := by
  obtain ⟨e, he, h⟩ := id_eq_ok.1 ho
  obtain ⟨e', he', h'⟩ := id_eq_ok.1 ho'
  rw [hd] at he
  rw [hd'] at he'
  cases he
  cases he'
  have hids := h.symm.trans h'
  rw [Kind.start_inj hids] at hids
  exact destinationString_inj (append_right_inj hids)

theorem status_of_marshalJSON {o o' : Objective} (h : o.marshalJSON = o'.marshalJSON) :
    o.getStatus = o'.getStatus := by
  have hread (o : Objective) :
      (o.marshalJSON.field "Status" >>= ObjectiveStatus.json.dec) = .ok o.getStatus := by
    cases o with
    | directFund o => exact ObjectiveStatus.json.round o.status
    | directDefund o => exact ObjectiveStatus.json.round o.status
    | virtualFund o => exact ObjectiveStatus.json.round o.status
    | virtualDefund o => exact ObjectiveStatus.json.round o.status
  have hstatus := hread o
  rw [h, hread o', Except.ok.injEq] at hstatus
  exact hstatus.symm

end Objective
end Protocols

open Protocols (Objective Storable)

/-- the kind is read off the id -/
def decodeObjective (id : ObjectiveId) (data : Json) : Res Objective :=
  if hasPrefix id DirectFund.objectivePrefix then
    (DirectFund.Objective.unmarshalJSON data).map .directFund
  else if hasPrefix id DirectDefund.objectivePrefix then
    (DirectDefund.Objective.unmarshalJSON data).map .directDefund
  else if hasPrefix id VirtualFund.objectivePrefix then
    (VirtualFund.Objective.unmarshalJSON data).map .virtualFund
  else if hasPrefix id VirtualDefund.objectivePrefix then
    (VirtualDefund.Objective.unmarshalJSON data).map .virtualDefund
  else .error (.err (.new ("objective id " ++ id ++
    " does not correspond to a known Objective type")))

/-! ## the tables -/

/-- a channel is only ever stored under its own id -/
@[ext] structure MemStore where
  objectives : Map ObjectiveId Json
  channels : Map Destination Channel
  consensusChannels : Map Destination ConsensusChannel
  channelToObjective : Map Destination ObjectiveId
  channels_id : ∀ {id c}, channels.lookup id = some c → c.id = id
  consensusChannels_id : ∀ {id c}, consensusChannels.lookup id = some c → c.id = id

def errNoSuchObjective : Error := .new "store: no such objective"
def errNoSuchChannel : Error := .new "store: failed to find required channel data"

theorem lookup_insert_cases {κ ν : Type} [DecidableEq κ] {m : Map κ ν} {k x : κ} {v w : ν}
    (h : (m.insert k v).lookup x = some w) : (x = k ∧ w = v) ∨ (x ≠ k ∧ m.lookup x = some w) := by
  by_cases hx : x = k
  · subst hx
    rw [Finmap.lookup_insert] at h
    cases h
    exact .inl ⟨rfl, rfl⟩
  · rw [Finmap.lookup_insert_of_ne _ hx] at h
    exact .inr ⟨hx, h⟩

theorem lookup_of_erase {κ ν : Type} [DecidableEq κ] {m : Map κ ν} {k x : κ} {w : ν}
    (h : (m.erase k).lookup x = some w) : x ≠ k ∧ m.lookup x = some w := by
  by_cases hx : x = k
  · subst hx
    rw [Finmap.lookup_erase] at h
    cases h
  · rw [Finmap.lookup_erase_ne hx] at h
    exact ⟨hx, h⟩

namespace MemStore

/-- `NewMemStore` -/
def empty : MemStore where
  objectives := ∅
  channels := ∅
  consensusChannels := ∅
  channelToObjective := ∅
  channels_id h := by rw [Finmap.lookup_empty] at h; cases h
  consensusChannels_id h := by rw [Finmap.lookup_empty] at h; cases h

def setChannel (ms : MemStore) (c : Channel) : MemStore :=
  { ms with
    channels := ms.channels.insert c.id c
    channels_id := fun h => by
      rcases lookup_insert_cases h with ⟨rfl, rfl⟩ | ⟨-, h⟩
      · rfl
      · exact ms.channels_id h }

def destroyChannel (ms : MemStore) (id : Destination) : MemStore :=
  { ms with
    channels := ms.channels.erase id
    channels_id := fun h => ms.channels_id (lookup_of_erase h).2 }

def setConsensusChannel (ms : MemStore) (c : ConsensusChannel) : MemStore :=
  { ms with
    consensusChannels := ms.consensusChannels.insert c.id c
    consensusChannels_id := fun h => by
      rcases lookup_insert_cases h with ⟨rfl, rfl⟩ | ⟨-, h⟩
      · rfl
      · exact ms.consensusChannels_id h }

def destroyConsensusChannel (ms : MemStore) (id : Destination) : MemStore :=
  { ms with
    consensusChannels := ms.consensusChannels.erase id
    consensusChannels_id := fun h => ms.consensusChannels_id (lookup_of_erase h).2 }

def releaseChannelFromOwnership (ms : MemStore) (channelId : Destination) : MemStore :=
  { ms with channelToObjective := ms.channelToObjective.erase channelId }

/-! ## writing an objective -/

def storeObjective (ms : MemStore) (id : ObjectiveId) (data : Json) : MemStore :=
  { ms with objectives := ms.objectives.insert id data }

def storeOwner (ms : MemStore) (channelId : Destination) (id : ObjectiveId) : MemStore :=
  { ms with channelToObjective := ms.channelToObjective.insert channelId id }

/-- `SetChannel` or `SetConsensusChannel`; neither fails -/
def setStorable (ms : MemStore) : Storable → MemStore
  | .channel c => ms.setChannel c
  | .consensusChannel c => ms.setConsensusChannel c

/-- the first half of `SetObjective`: the objective and its channels -/
def write (ms : MemStore) (id : ObjectiveId) (obj : Objective) : MemStore :=
  obj.related.foldl setStorable (ms.storeObjective id obj.marshalJSON)

section write
variable (ms : MemStore) (id : ObjectiveId) (obj : Objective)

theorem setStorables_eq (l : List Storable) : l.foldl setStorable ms =
    { ms with
      channels := (l.foldl setStorable ms).channels
      consensusChannels := (l.foldl setStorable ms).consensusChannels
      channels_id := (l.foldl setStorable ms).channels_id
      consensusChannels_id := (l.foldl setStorable ms).consensusChannels_id } := by
  induction l generalizing ms with
  | nil => rfl
  | cons s l ih =>
    show l.foldl setStorable (ms.setStorable s) = _
    rw [ih]
    cases s <;> rfl

@[simp] theorem write_objectives :
    (ms.write id obj).objectives = ms.objectives.insert id obj.marshalJSON := by
  unfold write
  rw [setStorables_eq]
  rfl

theorem write_channels : (ms.write id obj).channels =
    fill Channel.id (fun c => c) ms.channels obj.relatedChannels := by
  have hfold (l : List Storable) (ms : MemStore) : (l.foldl setStorable ms).channels =
      fill Channel.id (fun c => c) ms.channels (l.filterMap Storable.channel?) := by
    induction l generalizing ms with
    | nil => rfl
    | cons s l ih =>
      show (l.foldl setStorable (ms.setStorable s)).channels = _
      rw [ih]
      cases s <;> rfl
  exact hfold obj.related _

theorem write_consensusChannels : (ms.write id obj).consensusChannels =
    fill ConsensusChannel.id (fun c => c) ms.consensusChannels obj.relatedLedgers := by
  have hfold (l : List Storable) (ms : MemStore) : (l.foldl setStorable ms).consensusChannels =
      fill ConsensusChannel.id (fun c => c) ms.consensusChannels
        (l.filterMap Storable.consensusChannel?) := by
    induction l generalizing ms with
    | nil => rfl
    | cons s l ih =>
      show (l.foldl setStorable (ms.setStorable s)).consensusChannels = _
      rw [ih]
      cases s <;> rfl
  exact hfold obj.related _

@[simp] theorem write_channelToObjective :
    (ms.write id obj).channelToObjective = ms.channelToObjective := by
  unfold write
  rw [setStorables_eq]
  rfl

end write

section methods
variable (cr : Crypto)

def setObjective (obj : Objective) : Meth MemStore Unit := do
  let id ← obj.id cr
  modify fun ms => ms.write id obj
  let channelId ← obj.ownsChannel cr
  let ms ← get
  if obj.getStatus = .approved then
    match ms.channelToObjective.lookup channelId with
    | none => modify fun ms => ms.storeOwner channelId id
    | some prevOwner =>
      if prevOwner ≠ id then
        throw (.err (.new ("cannot transfer ownership of channel to from objective " ++ prevOwner ++
          " to " ++ id)))

/-- the objective is approved and its channel belongs to another one -/
def Refused (ms : MemStore) (obj : Objective) : Prop :=
  obj.getStatus = .approved ∧ ∃ id channelId prevOwner, obj.id cr = .ok id ∧
    obj.ownsChannel cr = .ok channelId ∧
    ms.channelToObjective.lookup channelId = some prevOwner ∧ prevOwner ≠ id

section cases
variable {cr} {ms : MemStore} {obj : Objective} {id : ObjectiveId} {channelId : Destination}

theorem setObjective_run (hid : obj.id cr = .ok id) (hc : obj.ownsChannel cr = .ok channelId) :
    setObjective cr obj ms =
      if obj.getStatus = .approved then
        match ms.channelToObjective.lookup channelId with
        | none => .ok () ((ms.write id obj).storeOwner channelId id)
        | some prevOwner =>
          if prevOwner ≠ id then
            .error (.err (.new ("cannot transfer ownership of channel to from objective " ++
              prevOwner ++ " to " ++ id))) (ms.write id obj)
          else .ok () (ms.write id obj)
      else .ok () (ms.write id obj) := by
  unfold setObjective
  rw [hid, Meth.bind_ok (Meth.lift_ok _ _), Meth.bind_ok (Meth.modify_run _ _), hc,
    Meth.bind_ok (Meth.lift_ok _ _), Meth.bind_ok (Meth.get_run _), write_channelToObjective]
  by_cases happroved : obj.getStatus = .approved
  · rw [if_pos happroved, if_pos happroved]
    cases ms.channelToObjective.lookup channelId with
    | none => rfl
    | some prevOwner =>
      by_cases howner : prevOwner ≠ id
      · show (if prevOwner ≠ id then throw _ else pure () : Meth MemStore Unit) _ = _
        rw [if_pos howner]
        show _ = if prevOwner ≠ id then _ else _
        rw [if_pos howner]
        rfl
      · show (if prevOwner ≠ id then throw _ else pure () : Meth MemStore Unit) _ = _
        rw [if_neg howner]
        show _ = if prevOwner ≠ id then _ else _
        rw [if_neg howner]
        rfl
  · rw [if_neg happroved, if_neg happroved]
    rfl

theorem setObjective_error {f : Fault} (hid : obj.id cr = .error f) :
    setObjective cr obj ms = .error f ms := by
  unfold setObjective
  rw [hid, Meth.bind_error (Meth.lift_error _ _)]

variable (cr) in
/-- **the three ways a call can end**: refused after the writes, with a new owner, or with none -/
theorem setObjective_cases (ms : MemStore) (hid : obj.id cr = .ok id)
    (hc : obj.ownsChannel cr = .ok channelId) :
    (Refused cr ms obj ∧ ∃ e, setObjective cr obj ms = .error (.err e) (ms.write id obj)) ∨
    (¬ Refused cr ms obj ∧ obj.getStatus = .approved ∧
      ms.channelToObjective.lookup channelId = none ∧
      setObjective cr obj ms = .ok () ((ms.write id obj).storeOwner channelId id)) ∨
    (¬ Refused cr ms obj ∧
      (obj.getStatus = .approved → ms.channelToObjective.lookup channelId = some id) ∧
      setObjective cr obj ms = .ok () (ms.write id obj)) := by
  have hrefused (h : Refused cr ms obj) : obj.getStatus = .approved ∧ ∃ prevOwner,
      ms.channelToObjective.lookup channelId = some prevOwner ∧ prevOwner ≠ id := by
    obtain ⟨happroved, i, d, prevOwner, hi, hd, hlookup, hne⟩ := h
    rw [hid] at hi
    rw [hc] at hd
    cases hi
    cases hd
    exact ⟨happroved, prevOwner, hlookup, hne⟩
  rw [setObjective_run hid hc]
  by_cases happroved : obj.getStatus = .approved
  · rw [if_pos happroved]
    cases hlookup : ms.channelToObjective.lookup channelId with
    | none =>
      refine .inr (.inl ⟨fun h => ?_, happroved, rfl, rfl⟩)
      obtain ⟨-, prevOwner, hprev, -⟩ := hrefused h
      rw [hlookup] at hprev
      cases hprev
    | some prevOwner =>
      by_cases howner : prevOwner ≠ id
      · refine .inl ⟨⟨happroved, id, channelId, prevOwner, hid, hc, hlookup, howner⟩,
          .new ("cannot transfer ownership of channel to from objective " ++ prevOwner ++
            " to " ++ id), ?_⟩
        show (if prevOwner ≠ id then _ else _) = _
        rw [if_pos howner]
      · rw [not_not] at howner
        refine .inr (.inr ⟨fun h => ?_, fun _ => by rw [howner], ?_⟩)
        · obtain ⟨-, p, hprev, hne⟩ := hrefused h
          rw [hlookup] at hprev
          cases hprev
          exact hne howner
        · show (if prevOwner ≠ id then _ else _) = _
          rw [if_neg (not_not.2 howner)]
  · rw [if_neg happroved]
    exact .inr (.inr ⟨fun h => happroved h.1, fun h => absurd h happroved, rfl⟩)

theorem exists_ownsChannel (hid : obj.id cr = .ok id) : ∃ d, obj.ownsChannel cr = .ok d := by
  obtain ⟨d, hd, -⟩ := Objective.id_eq_ok.1 hid
  exact ⟨d, hd⟩

end cases

/-! ## reading -/

def getChannelById (ms : MemStore) (id : Destination) : Option Channel := ms.channels.lookup id

def getChannelData (ms : MemStore) (id : Destination) : Res Channel :=
  match ms.channels.lookup id with
  | none => .error (.err errNoSuchChannel)
  | some c => .ok c

def getConsensusChannelById (ms : MemStore) (id : Destination) : Res ConsensusChannel :=
  match ms.consensusChannels.lookup id with
  | none => .error (.err errNoSuchChannel)
  | some c => .ok c

/-- one entry for every time that the participant is in the list of a channel -/
def getChannelsByParticipant (ms : MemStore) (order : List Destination) (participant : Address) :
    List Channel :=
  order.flatMap fun id =>
    match ms.channels.lookup id with
    | none => []
    | some c => (c.fixedPart.participants.filter fun p => decide (p = participant)).map fun _ => c

/-- the participants of a channel of two, and one of them is the counterparty -/
def isLedgerWith (counterparty : Address) (c : ConsensusChannel) : Bool :=
  match c.fp.participants with
  | [p, q] => decide (p = counterparty ∨ q = counterparty)
  | _ => false

/-- the first one that is met -/
def getConsensusChannel (ms : MemStore) (order : List Destination) (counterparty : Address) :
    Option ConsensusChannel :=
  order.findSome? fun id => (ms.consensusChannels.lookup id).filter (isLedgerWith counterparty)

/-- the ledger of a connection or of a `virtualdefund` objective; one with the zero id is left alone -/
def populateLedger (ms : MemStore) (side : String) (id : ObjectiveId) (c : ConsensusChannel) :
    Res ConsensusChannel :=
  if c.id = 0 then .ok c
  else (ms.getConsensusChannelById c.id).wrap
    ("error retrieving " ++ side ++ " ledger channel data for objective " ++ id ++ ": ")

/-- through a pointer that may be `nil` -/
def populatePointer {α : Type} (populate : α → Res α) : Option α → Res (Option α)
  | none => .ok none
  | some a => do
    let a ← populate a
    .ok (some a)

def populateChannelData (ms : MemStore) (obj : Objective) : Res Objective := do
  let id ← obj.id cr
  match obj with
  | .directFund o => do
    let c ← (ms.getChannelData o.c.id).wrap
      ("error retrieving channel data for objective " ++ id ++ ": ")
    .ok (.directFund { o with c := c })
  | .directDefund o => do
    let c ← (ms.getChannelData o.c.id).wrap
      ("error retrieving channel data for objective " ++ id ++ ": ")
    .ok (.directDefund { o with c := c })
  | .virtualFund o => do
    let v ← (ms.getChannelData o.v.id).wrap
      ("error retrieving virtual channel data for objective " ++ id ++ ": ")
    let populate (side : String) (c : VirtualFund.Connection) : Res VirtualFund.Connection := do
      let ledger ← ms.populateLedger side id c.channel
      .ok { c with channel := ledger }
    let toMyLeft ← populatePointer (populate "left") o.toMyLeft
    let toMyRight ← populatePointer (populate "right") o.toMyRight
    .ok (.virtualFund { o with v := v, toMyLeft := toMyLeft, toMyRight := toMyRight })
  | .virtualDefund o => do
    let toMyLeft ← populatePointer (ms.populateLedger "left" id) o.toMyLeft
    let toMyRight ← populatePointer (ms.populateLedger "right" id) o.toMyRight
    .ok (.virtualDefund { o with toMyLeft := toMyLeft, toMyRight := toMyRight })

/-- no caller uses the objective that comes next to an error -/
def getObjectiveById (ms : MemStore) (id : ObjectiveId) : Res Objective :=
  match ms.objectives.lookup id with
  | none => .error (.err (.wrapBefore errNoSuchObjective (": " ++ id)))
  | some objJSON => do
    let obj ← (decodeObjective id objJSON).wrap ("error decoding objective " ++ id ++ ": ")
    (ms.populateChannelData cr obj).wrap
      ("error populating channel data for objective " ++ id ++ ": ")

def getObjectiveByChannelId (ms : MemStore) (channelId : Destination) : Res (Option Objective) :=
  match ms.channelToObjective.lookup channelId with
  | none => .ok none
  | some id =>
    match ms.getObjectiveById cr id with
    | .ok o => .ok (some o)
    | .error (.err _) => .ok none
    | .error (.panic r) => .error (.panic r)

end methods
end MemStore
end Nitro
