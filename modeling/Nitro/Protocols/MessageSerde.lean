import Nitro.ChannelSerde
import Nitro.Consensus.Malformed
import Nitro.Protocols.Messages

/-!
# Messages on the wire

`Serialize` and `DeserializeMessage`.  A payload is written with its objective and one of its two
halves; which one is inferred from whether the proposal is the zero value.  The reader infers the
same from what it has read, and refuses a payload of which not exactly one half is there.

* `marshalJSON`, `unmarshalJSON`     a payload;
* `checkPayloads`                    the loop of `DeserializeMessage`;
* `MessagePayload.Single`            one half is there and the other one is the zero value;
* `deserializeMessage_serialize`     a message of such payloads survives;
* `messages_survive`                 **what the constructors build survives the wire, and every
                                     other payload is refused**.
-/

set_option linter.unusedSectionVars false

namespace Nitro
open Go Wire

/-! ## the code -/

namespace MessagePayload

/-- the state is compared with the zero value by `Equal` -/
def hasState (p : MessagePayload) : Res Bool := do
  let same ← p.signedState.state.equal State.zero
  .ok !same

/-- `MarshalJSON`: the objective and one of the two halves -/
def marshalJSON (p : MessagePayload) : Json :=
  match p.type with
  | .signedStatePayload =>
    .obj [("ObjectiveId", Codec.string.enc p.objectiveId),
      ("SignedState", SignedState.json.enc p.signedState)]
  | .signedProposalPayload =>
    .obj [("ObjectiveId", Codec.string.enc p.objectiveId),
      ("SignedProposal", SignedProposal.json.enc p.signedProposal)]

/-- the struct has no `UnmarshalJSON` of its own: a field that is missing keeps its zero value -/
def unmarshalJSON (j : Json) : Res MessagePayload := do
  let objectiveId ← Codec.string.dec (← j.field "ObjectiveId")
  let signedState ← SignedState.json.dec (← j.field "SignedState")
  let signedProposal ← SignedProposal.json.dec (← j.field "SignedProposal")
  .ok ⟨objectiveId, signedState, signedProposal⟩

end MessagePayload

namespace Message

/-- the document that `Serialize` writes, for a `jsonMessage` -/
def serialize (m : Message) : Json :=
  .obj [("To", addressJson.enc m.recipient), ("Payloads", .arr (m.payloads.map (·.marshalJSON)))]

/-- a list of payloads; `null` is an empty one -/
def readPayloads : Json → Res (List MessagePayload)
  | .null => .ok []
  | .arr l => l.mapM MessagePayload.unmarshalJSON
  | _ => .error Json.typeError

/-- the fields of `jsonMessage` -/
def unmarshalJSON (j : Json) : Res Message := do
  let recipient ← addressJson.dec (← j.field "To")
  let payloads ← readPayloads (← j.field "Payloads")
  .ok ⟨recipient, payloads⟩

end Message

def errInvalidPayload : Error := .new "payload has too many values"

/-- the loop of `DeserializeMessage` -/
def checkPayloads : List MessagePayload → Res Unit
  | [] => .ok ()
  | p :: payloads => do
    let numPresent := if p.hasProposal then 1 else 0
    let numPresent := if ← p.hasState then numPresent + 1 else numPresent
    failIf (numPresent ≠ 1) errInvalidPayload
    checkPayloads payloads

/-- a document that cannot be read is refused too; the source may name the other error then, because
it checks the payloads that were read before it returns the error of `Unmarshal` -/
def deserializeMessage (j : Json) : Res Message := do
  let msg ← Message.unmarshalJSON j
  checkPayloads msg.payloads
  .ok msg

/-! ## which half is there -/

theorem State.equal_zero (s : State) : s.equal State.zero = .ok (decide (s = State.zero)) := by
  by_cases h : s = State.zero
  · rw [h, State.equal_self]
    rfl
  · have hne : s.equal State.zero ≠ .ok true := fun he => h (State.equal_eq he)
    have hok : ∃ b, s.equal State.zero = .ok b := by
      unfold State.equal
      split
      · -- the outcome is compared with an empty one, so no amount is read
        show ∃ b, (Exit.equal s.outcome [] >>= _) = Except.ok b
        cases s.outcome with
        | nil => exact ⟨_, rfl⟩
        | cons e o => exact ⟨_, rfl⟩
      · exact ⟨_, rfl⟩
    obtain ⟨b, hb⟩ := hok
    rw [hb] at hne ⊢
    cases b with
    | true => exact absurd rfl hne
    | false => rw [decide_eq_false h]

namespace MessagePayload
variable {p : MessagePayload}

@[simp] theorem hasState_eq (p : MessagePayload) :
    p.hasState = .ok (decide (p.signedState.state ≠ State.zero)) := by
  unfold hasState
  rw [State.equal_zero]
  simp

inductive Single (p : MessagePayload) : Prop
  | state (hstate : p.signedState.state ≠ State.zero) (hzero : p.signedProposal = SignedProposal.zero)
  | proposal (hproposal : p.signedProposal.proposal ≠ SignedProposal.zero.proposal)
      (hzero : p.signedState = SignedState.zero)

theorem unmarshalJSON_marshalJSON (h : p.Single) : unmarshalJSON p.marshalJSON = .ok p := by
  obtain ⟨objectiveId, signedState, signedProposal⟩ := p
  cases h with
  | state hstate hzero =>
    obtain rfl : signedProposal = SignedProposal.zero := hzero
    have htype : type ⟨objectiveId, signedState, SignedProposal.zero⟩ = .signedStatePayload := by
      simp [type, hasProposal]
    have hdec : SignedProposal.json.dec .null = .ok SignedProposal.zero := rfl
    unfold marshalJSON
    rw [htype]
    simp [unmarshalJSON, hdec]
  | proposal hproposal hzero =>
    obtain rfl : signedState = SignedState.zero := hzero
    have htype : type ⟨objectiveId, SignedState.zero, signedProposal⟩ = .signedProposalPayload := by
      simpa [type, hasProposal] using hproposal
    have hdec : SignedState.json.dec .null = .ok SignedState.zero := rfl
    unfold marshalJSON
    rw [htype]
    simp [unmarshalJSON, hdec]

end MessagePayload

/-! ## the loop -/

theorem checkPayloads_cons (p : MessagePayload) (payloads : List MessagePayload) :
    checkPayloads (p :: payloads) =
      if p.hasState = .ok p.hasProposal then .error (.err errInvalidPayload)
      else checkPayloads payloads := by
  rw [checkPayloads, MessagePayload.hasState_eq]
  by_cases hs : p.signedState.state = State.zero <;> cases hp : p.hasProposal <;>
    simp [hs, failIf]

theorem checkPayloads_ok {payloads : List MessagePayload} (h : ∀ p ∈ payloads, p.Single) :
    checkPayloads payloads = .ok () := by
  induction payloads with
  | nil => rfl
  | cons p payloads ih =>
    rw [checkPayloads_cons, if_neg, ih fun q hq => h q (List.mem_cons_of_mem p hq)]
    rw [MessagePayload.hasState_eq]
    cases h p List.mem_cons_self with
    | state hstate hzero => simp [hstate, MessagePayload.hasProposal, hzero]
    | proposal hproposal hzero =>
      have hz : SignedState.zero.state = State.zero := rfl
      simpa [MessagePayload.hasProposal, hzero, hz] using hproposal

theorem checkPayloads_error {payloads : List MessagePayload} {p : MessagePayload}
    (hp : p ∈ payloads) (hbad : p.hasState = .ok p.hasProposal) :
    checkPayloads payloads = .error (.err errInvalidPayload) := by
  induction payloads with
  | nil => cases hp
  | cons q payloads ih =>
    rw [checkPayloads_cons]
    by_cases hq : q.hasState = .ok q.hasProposal
    · rw [if_pos hq]
    · rw [if_neg hq]
      rcases List.mem_cons.1 hp with rfl | hp
      · exact absurd hbad hq
      · exact ih hp

/-! ## round trips -/

theorem deserializeMessage_serialize {m : Message} (h : ∀ p ∈ m.payloads, p.Single) :
    deserializeMessage m.serialize = .ok m := by
  have hread : (m.payloads.map (·.marshalJSON)).mapM MessagePayload.unmarshalJSON =
      .ok m.payloads := by
    rw [Res.mapM_forall₂, List.forall₂_map_left_iff, List.forall₂_same]
    exact fun p hp => MessagePayload.unmarshalJSON_marshalJSON (h p hp)
  have hmsg : Message.unmarshalJSON m.serialize = .ok m := by
    simp [Message.unmarshalJSON, Message.serialize, Message.readPayloads, hread]
  unfold deserializeMessage
  rw [hmsg]
  simp only [Res.ok_bind, checkPayloads_ok h]

theorem single_of_createSignedStateMessages {id : ObjectiveId} {ss : SignedState} {myIndex : Nat}
    {m : Message} (hfixed : ss.state.fixedPart ≠ State.zero.fixedPart)
    (hm : m ∈ createSignedStateMessages id ss myIndex) : ∀ p ∈ m.payloads, p.Single := by
  obtain ⟨_, -, rfl⟩ := List.mem_map.1 hm
  intro p hp
  obtain rfl := List.mem_singleton.1 hp
  exact .state (fun e => hfixed (congrArg State.fixedPart e)) rfl

theorem Proposal.Readable.ne_zero {p : Proposal} (h : p.Readable) :
    p ≠ SignedProposal.zero.proposal := by
  intro e
  subst e
  exact h rfl

theorem single_of_createSignedProposalMessage {recipient : Address} {proposals : List SignedProposal}
    (h : ∀ sp ∈ proposals, sp.proposal.Readable) :
    ∀ p ∈ (createSignedProposalMessage recipient proposals).payloads, p.Single := by
  intro p hp
  obtain ⟨sp, hsp, rfl⟩ := List.mem_map.1 hp
  exact .proposal (h sp hsp).ne_zero rfl

theorem deserializeMessage_refuses {j pj : Json} {l : List Json} {p : MessagePayload}
    (hl : j.field "Payloads" = .ok (.arr l)) (hpj : pj ∈ l)
    (hp : MessagePayload.unmarshalJSON pj = .ok p) (hbad : p.hasState = .ok p.hasProposal) :
    deserializeMessage j = .error (.err errInvalidPayload) ∨
      ∃ e, Message.unmarshalJSON j = .error e ∧ deserializeMessage j = .error e := by
  unfold deserializeMessage
  cases hmsg : Message.unmarshalJSON j with
  | error e => exact .inr ⟨e, rfl, rfl⟩
  | ok msg =>
    have hpayloads : ∃ payloads, l.mapM MessagePayload.unmarshalJSON = .ok payloads ∧
        msg.payloads = payloads := by
      obtain ⟨field, -, hmsg⟩ := Res.bind_eq_ok.1 hmsg
      obtain ⟨recipient, -, hmsg⟩ := Res.bind_eq_ok.1 hmsg
      rw [hl, Res.ok_bind] at hmsg
      obtain ⟨payloads, hpayloads, hmsg⟩ := Res.bind_eq_ok.1 hmsg
      cases hmsg
      exact ⟨payloads, hpayloads, rfl⟩
    obtain ⟨payloads, hread, hsame⟩ := hpayloads
    obtain ⟨q, hq, hqp⟩ := Res.mem_of_mapM hread hpj
    obtain rfl : p = q := Except.ok.inj (hp.symm.trans hqp)
    refine .inl ?_
    rw [Res.ok_bind, hsame, checkPayloads_error hq hbad]
    rfl

/-- **messages survive the wire** -/
theorem messages_survive :
    (∀ (id : ObjectiveId) (ss : SignedState) (myIndex : Nat) (m : Message),
      ss.state.fixedPart ≠ State.zero.fixedPart → m ∈ createSignedStateMessages id ss myIndex →
        deserializeMessage m.serialize = .ok m) ∧
    (∀ (recipient : Address) (proposals : List SignedProposal),
      (∀ sp ∈ proposals, sp.proposal.Readable) →
        deserializeMessage (createSignedProposalMessage recipient proposals).serialize =
          .ok (createSignedProposalMessage recipient proposals)) ∧
    ∀ (j pj : Json) (l : List Json) (p : MessagePayload), j.field "Payloads" = .ok (.arr l) →
      pj ∈ l → MessagePayload.unmarshalJSON pj = .ok p → p.hasState = .ok p.hasProposal →
        deserializeMessage j = .error (.err errInvalidPayload) ∨
          ∃ e, Message.unmarshalJSON j = .error e ∧ deserializeMessage j = .error e :=
  ⟨fun _ _ _ _ hfixed hm =>
      deserializeMessage_serialize (single_of_createSignedStateMessages hfixed hm),
    fun _ _ h => deserializeMessage_serialize (single_of_createSignedProposalMessage h),
    fun _ _ _ _ => deserializeMessage_refuses⟩

namespace Sample

/-- a signed proposal to add a guarantee, and one to remove it -/
def wireProposals : List SignedProposal :=
  [⟨⟨[1], [2], 27⟩, ⟨7, ⟨⟨some 5, 8, 1, 2⟩, some 3⟩, Remove.zero⟩, 4⟩,
    ⟨⟨[3], [4], 28⟩, ⟨7, Add.zero, ⟨8, some 3⟩⟩, 5⟩]

end Sample

theorem messages_survive_sample :
    (createSignedStateMessages "DirectFunding-" Sample.signedFive 0).length = 1 ∧
    (∀ m ∈ createSignedStateMessages "DirectFunding-" Sample.signedFive 0,
      deserializeMessage m.serialize = .ok m) ∧
    deserializeMessage (createSignedProposalMessage 2 Sample.wireProposals).serialize =
      .ok (createSignedProposalMessage 2 Sample.wireProposals) ∧
    deserializeMessage (.obj [("Payloads", .arr [.obj []])]) = .error (.err errInvalidPayload) := by
  obtain ⟨hstates, hproposals, hrefused⟩ := messages_survive
  have hfixed : Sample.signedFive.state.fixedPart ≠ State.zero.fixedPart := by decide
  have hreadable : ∀ sp ∈ Sample.wireProposals, sp.proposal.Readable := by
    intro sp hsp
    rcases List.mem_cons.1 hsp with rfl | hsp
    · exact ⟨Option.some_ne_none _, Option.some_ne_none _⟩
    · obtain rfl := List.mem_singleton.1 hsp
      exact Option.some_ne_none _
  refine ⟨by decide, fun m hm => hstates _ _ _ m hfixed hm, hproposals 2 _ hreadable, ?_⟩
  have hbad := hrefused (.obj [("Payloads", .arr [.obj []])]) (.obj []) [.obj []]
    ⟨"", SignedState.zero, SignedProposal.zero⟩ rfl List.mem_cons_self rfl rfl
  rcases hbad with hbad | ⟨e, he, -⟩
  · exact hbad
  · cases he

end Nitro
