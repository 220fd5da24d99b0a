import Nitro.Protocols.Neutrality

/-!
# Ledger updates that a virtual channel authorises

Whatever a peer sends, an objective for a virtual channel signs no ledger update but its own: the proposal
that adds the guarantee, once everybody signed the prefund state, and the proposal that removes it,
once everybody signed the final state.

* `VirtualFund.Authorised`, `VirtualDefund.Authorised`   what is known when a proposal is signed;
* `virtual_updates_authorised`      **it holds whenever `Crank` signs a proposal**, in every run.
-/

set_option linter.unusedSectionVars false

namespace Nitro
open Go FinMap Runs

namespace VirtualFund

/-- `u` is a use of the key for the proposal `sp` on a ledger, in a run of the objective `o` for `V`
with initial state `s` -/
structure Authorised (cr : Crypto) (s : State) (asset : Address) (o : Objective)
    (u : KeyUse Objective) (ledger : ConsensusChannel) (sp : SignedProposal) : Prop where
  expected : ∃ side c x y, u.during.connection side = some c ∧ c.channel = ledger ∧
    (∀ r r', sp.proposal = c.expectedProposal r r') ∧
    s.participants[side.position o.myRole]? = some x ∧
    s.participants[side.position o.myRole + 1]? = some y ∧
    sp.proposal = newAddProposal ledger.id
      ⟨some (o.a0.amount asset + o.b0.amount asset), o.v.id, addressToDestination x,
        addressToDestination y⟩ (some (o.a0.amount asset))
  prefund : ∀ (i : Nat) a, s.participants[i]? = some a →
    ∃ sig, u.during.v.signedPreFundState.entries.lookup i = some sig ∧
      u.during.v.preFundState.recoverSigner cr sig = .ok a

variable {cr : Crypto} {getLedger : Address → Option ConsensusChannel} {me asset : Address}
variable {s : State} {o : Objective}

theorem kept_true : ConsensusChannel.Kept cr fun _ => True := ⟨fun _ _ => trivial, fun _ _ => trivial⟩

theorem Opened.authorised (h : Opened cr getLedger me s o) (hs : OneAsset s.outcome asset)
    {calls : List Objective.Call} {call : Objective.Call} {u : KeyUse Objective}
    {ledger : ConsensusChannel} {sp : SignedProposal}
    (hu : u ∈ call.uses cr (run (Objective.Call.step cr) o calls))
    (hsigned : u.signed = .proposal ledger sp) : Authorised cr s asset o u ledger sp := by
  have hne := h.participants_ne_nil
  obtain ⟨ha, hb⟩ := h.amounts_keys hs
  have hkeeps : Objective.Runs cr s (o.frame s fun _ _ => True) o :=
    h.keeps fun _ _ _ => trivial
  have hrun := Objective.run_keeps (fun _ => kept_true) hne hkeeps calls
  obtain ⟨orders, hreason, hduring⟩ := Objective.Call.uses_proper (fun _ => kept_true) hne hrun hu
  cases hreason with
  | prefund => cases hsigned
  | postfund => cases hsigned
  | @ledger o' side c sp' hpre hc hsp =>
    cases hsigned
    obtain ⟨⟨x, y, hx, hy, hinfo⟩, -⟩ := hduring.connection side c hc
    refine ⟨⟨side, c, x, y, hc, rfl, fun r r' => ?_, hx, hy, ?_⟩, fun i a hi => ?_⟩
    · rw [hsp, c.expectedProposal_single _ _ hinfo ha hb, c.expectedProposal_single _ _ hinfo ha hb]
    · rw [hsp, c.expectedProposal_single _ _ hinfo ha hb]
    · obtain ⟨-, sig, hsig, hrec, -⟩ := hduring.v.pre.complete hpre (j := i) (a := a) hi
      refine ⟨sig, hsig, ?_⟩
      rw [hduring.v.preFundState_eq]
      exact hrec

end VirtualFund

namespace VirtualDefund

/-- the same for an objective that defunds the channel -/
structure Authorised (cr : Crypto) (o : Objective) (u : KeyUse Objective)
    (ledger : ConsensusChannel) (sp : SignedProposal) : Prop where
  expected : ∃ side final e alice V, u.during.ledger side = some ledger ∧
    o.finalState = .ok final ∧ final.outcome = [e] ∧ e.allocations[0]? = some alice ∧
    o.vFixed.channelId cr = .ok V ∧ sp.proposal = newRemoveProposal ledger.id V alice.amount
  signatures : ∀ i < 3, ∃ sig a final, u.during.signature i = .ok sig ∧
    Objective.isZero sig = false ∧ o.vFixed.participants[i]? = some a ∧
    o.finalState = .ok final ∧ final.recoverSigner cr sig = .ok a

/-- a `Crank` is called with the key of the client -/
def OwnKey (cr : Crypto) (me : Address) : Objective.Call → Prop
  | .crank sk => cr.secretKeyToAddress sk = some me
  | _ => True

variable {cr : Crypto} {getChannel : Destination → Option Channel}
variable {getLedger : Address → Option ConsensusChannel} {me : Address} {o : Objective}

theorem ledgerProposal_ok {ledger : ConsensusChannel} {p : Proposal}
    (h : o.ledgerProposal cr ledger = .ok p) :
    ∃ final e alice V, o.finalState = .ok final ∧ final.outcome = [e] ∧
      e.allocations[0]? = some alice ∧ o.vFixed.channelId cr = .ok V ∧
      p = newRemoveProposal ledger.id V alice.amount := by
  obtain ⟨e, he, h⟩ := Res.bind_eq_ok.1 h
  obtain ⟨alice, halice, h⟩ := Res.bind_eq_ok.1 h
  obtain ⟨V, hV, hend⟩ := Res.bind_eq_ok.1 h
  cases hend
  have hfinal : o.finalState = .ok (stateFromFixedAndVariablePart o.vFixed
      { appData := [], outcome := [e], turnNum := finalTurnNum, isFinal := true }) := by
    unfold Objective.finalState
    rw [he]
    rfl
  exact ⟨_, e, alice, V, hfinal, rfl, index_eq_ok.1 halice, hV, rfl⟩

theorem fullySigned_iff : o.fullySigned = true ↔
    ∀ i < 3, ∃ sig, o.signature i = .ok sig ∧ Objective.isZero sig = false := by
  constructor
  · intro h i hi
    have hcases : i = 0 ∨ i = 1 ∨ i = 2 := by omega
    simp only [Objective.fullySigned, List.all_cons, List.all_nil, Bool.and_true, Bool.and_eq_true,
      Bool.not_eq_true'] at h
    obtain ⟨h0, h1, h2⟩ := h
    rcases hcases with rfl | rfl | rfl
    · exact ⟨_, rfl, h0⟩
    · exact ⟨_, rfl, h1⟩
    · exact ⟨_, rfl, h2⟩
  · intro h
    obtain ⟨_, ⟨⟩, h0⟩ := h 0 (by omega)
    obtain ⟨_, ⟨⟩, h1⟩ := h 1 (by omega)
    obtain ⟨_, ⟨⟩, h2⟩ := h 2 (by omega)
    simp [Objective.fullySigned, h0, h1, h2]

theorem Opened.authorised (hsc : SignCorrect cr) (h : Opened cr getChannel getLedger me o)
    (hstore : ∀ id c, getChannel id = some c → c.fixedPart.participants[c.myIndex]? = some me)
    {calls : List Objective.Call} {call : Objective.Call} {u : KeyUse Objective}
    {ledger : ConsensusChannel} {sp : SignedProposal} (hkeys : ∀ x ∈ call :: calls, OwnKey cr me x)
    (hu : u ∈ call.uses cr (run (Objective.Call.step cr) o calls))
    (hsigned : u.signed = .proposal ledger sp) : Authorised cr o u ledger sp := by
  obtain ⟨request, preApprove, hnew⟩ := h.newObjective
  obtain ⟨channel, hfound, -, -, hfixed, hrole, hzero⟩ := newObjective_ok hnew
  have hme : o.vFixed.participants[o.myRole]? = some me := by
    rw [hfixed, hrole]
    exact hstore _ _ hfound
  have hown : ∀ x ∈ call :: calls,
      Objective.Call.Attests cr (Objective.SignedBy cr o) o x := by
    intro x hx
    have hkey := hkeys x hx
    cases x with
    | crank sk =>
      intro final sig hfinal hsig
      exact ⟨final, me, hfinal, hme, State.recover_sign hsc hsig hkey⟩
    | approve => trivial
    | reject => trivial
    | update event => trivial
  have hrun : Objective.Keeps (Objective.SignedBy cr o) o
      (run (Objective.Call.step cr) o calls) :=
    Along.inv (Objective.Call.keeps_step fun _ _ hs => hs) (Objective.keeps_new hzero)
      (Along.of_forall fun x hx => hown x (List.mem_cons_of_mem call hx))
  obtain ⟨hreason, hduring⟩ := Objective.Call.uses_proper hrun (hown call List.mem_cons_self) hu
  cases hreason with
  | final hfinal => cases hsigned
  | @ledger o' side ledger' sp' hfull hledger hsp =>
    cases hsigned
    rw [hduring.same.ledgerProposal_eq] at hsp
    obtain ⟨final, e, alice, V, hfinal, hone, halice, hV, heq⟩ := ledgerProposal_ok hsp
    refine ⟨⟨side, final, e, alice, V, hledger, hfinal, hone, halice, hV, heq⟩, fun i hi => ?_⟩
    obtain ⟨sig, hsig, hnonzero⟩ := fullySigned_iff.1 hfull i hi
    obtain ⟨final', a, hfinal', ha, hrec⟩ := hduring.checked i sig hsig hnonzero
    exact ⟨sig, a, final', hsig, hnonzero, ha, hfinal', hrec⟩

end VirtualDefund

/-- **virtual objectives authorise only their own ledger updates**, and in order: whenever `Crank` uses
the key on a ledger proposal, after any calls, the proposal is the objective's own, and everybody
has signed the prefund state, or the final state -/
theorem virtual_updates_authorised {cr : Crypto} (hsc : SignCorrect cr) (me : Address) :
    (∀ getLedger s asset o, VirtualFund.Opened cr getLedger me s o →
      VirtualFund.OneAsset s.outcome asset →
      ∀ (calls : List VirtualFund.Objective.Call) (call : VirtualFund.Objective.Call) u ledger sp,
        u ∈ call.uses cr (run (VirtualFund.Objective.Call.step cr) o calls) →
        u.signed = .proposal ledger sp → VirtualFund.Authorised cr s asset o u ledger sp) ∧
    (∀ getChannel getLedger o, VirtualDefund.Opened cr getChannel getLedger me o →
      (∀ id c, getChannel id = some c → c.fixedPart.participants[c.myIndex]? = some me) →
      ∀ (calls : List VirtualDefund.Objective.Call) (call : VirtualDefund.Objective.Call) u ledger sp,
        (∀ x ∈ call :: calls, VirtualDefund.OwnKey cr me x) →
        u ∈ call.uses cr (run (VirtualDefund.Objective.Call.step cr) o calls) →
        u.signed = .proposal ledger sp → VirtualDefund.Authorised cr o u ledger sp) := by
  refine ⟨fun getLedger s asset o h hs calls call u ledger sp hu hsigned => ?_,
    fun getChannel getLedger o h hstore calls call u ledger sp hkeys hu hsigned => ?_⟩
  · exact h.authorised hs hu hsigned
  · exact h.authorised hsc hstore hkeys hu hsigned

/-! ## Alice funds and defunds a channel -/

namespace Sample

/-- Alice asks for a channel with Bob -/
def virtualRequest : VirtualFund.ObjectiveRequest :=
  ⟨2, 3, [], some 60, virtualState.outcome, 7⟩

def aliceFunds : VirtualFund.Objective :=
  (VirtualFund.newObjective Crypto.plain virtualRequest true 1
    fun _ => some (ledgerLedBy 1 2)).toOption.getD
      ⟨.rejected, channel, none, none, 0, 0, ∅, ∅⟩

theorem new_aliceFunds : VirtualFund.newObjective Crypto.plain virtualRequest true 1
    (fun _ => some (ledgerLedBy 1 2)) = .ok aliceFunds := by decide +kernel

def isProposal {ω : Type} (u : KeyUse ω) : Bool :=
  match u.signed with
  | .proposal .. => true
  | .state _ => false

theorem signed_of_isProposal {ω : Type} {u : KeyUse ω} (h : isProposal u = true) :
    ∃ ledger sp, u.signed = .proposal ledger sp := by
  unfold isProposal at h
  split at h
  · next ledger sp hsigned => exact ⟨ledger, sp, hsigned⟩
  · cases h

theorem key_plain : Crypto.plain.secretKeyToAddress (key 1) = some 1 := by decide +kernel

def fundingCalls : List VirtualFund.Objective.Call :=
  [.crank orders (key 1), .update ⟨aliceFunds.id, signedByOthers virtualState, SignedProposal.zero⟩]

theorem alice_proposes : ((VirtualFund.Objective.Call.crank orders (key 1)).uses Crypto.plain
    (run (VirtualFund.Objective.Call.step Crypto.plain) aliceFunds fundingCalls)).any isProposal =
      true := by decide +kernel

/-- the ledger between Alice and the intermediary with the guarantee in it -/
def guaranteeLedger : ConsensusChannel :=
  { ledgerLedBy 1 2 with
    current := ⟨(ledgerLedBy 1 2).current.vars.funded (Vars.guaranteeFor virtualId 1 2 5 3) 5,
      (default, default)⟩ }

def aliceDefunds : VirtualDefund.Objective :=
  (VirtualDefund.newObjective ⟨virtualId, some 2⟩ true 1 (fun _ => some aliceFunds.v)
    fun _ => some guaranteeLedger).toOption.getD
      ⟨.rejected, ⟨0, [], []⟩, none, fp, (default, default, default), none, none, 0⟩

theorem new_aliceDefunds : VirtualDefund.newObjective ⟨virtualId, some 2⟩ true 1
    (fun _ => some aliceFunds.v) (fun _ => some guaranteeLedger) = .ok aliceDefunds := by
  decide +kernel

def defundingCalls : List VirtualDefund.Objective.Call :=
  [.crank (key 1), .update ⟨(aliceDefunds.id Crypto.plain).toOption.getD "",
    signedByOthers (aliceDefunds.finalState.toOption.getD virtualState), SignedProposal.zero⟩]

theorem alice_removes : ((VirtualDefund.Objective.Call.crank (key 1)).uses Crypto.plain
    (run (VirtualDefund.Objective.Call.step Crypto.plain) aliceDefunds defundingCalls)).any
      isProposal = true := by decide +kernel

end Sample

open Sample in
theorem virtual_updates_authorised_alice :
    (∃ u ledger sp, u ∈ (VirtualFund.Objective.Call.crank orders (key 1)).uses Crypto.plain
        (run (VirtualFund.Objective.Call.step Crypto.plain) aliceFunds fundingCalls) ∧
      u.signed = .proposal ledger sp ∧
      VirtualFund.Authorised Crypto.plain virtualState 0 aliceFunds u ledger sp) ∧
    (∃ u ledger sp, u ∈ (VirtualDefund.Objective.Call.crank (key 1)).uses Crypto.plain
        (run (VirtualDefund.Objective.Call.step Crypto.plain) aliceDefunds defundingCalls) ∧
      u.signed = .proposal ledger sp ∧
      VirtualDefund.Authorised Crypto.plain aliceDefunds u ledger sp) := by
  obtain ⟨hfund, hdefund⟩ := virtual_updates_authorised signCorrect_plain 1
  constructor
  · obtain ⟨u, hu, hproposal⟩ := List.any_eq_true.1 alice_proposes
    obtain ⟨ledger, sp, hsigned⟩ := signed_of_isProposal hproposal
    refine ⟨u, ledger, sp, hu, hsigned, ?_⟩
    refine hfund _ _ 0 _ (.request new_aliceFunds) ⟨List.cons_ne_nil _ _, ?_⟩ _ _ u ledger sp hu hsigned
    intro x hx
    rw [List.mem_singleton.1 hx]
  · obtain ⟨u, hu, hproposal⟩ := List.any_eq_true.1 alice_removes
    obtain ⟨ledger, sp, hsigned⟩ := signed_of_isProposal hproposal
    refine ⟨u, ledger, sp, hu, hsigned, ?_⟩
    refine hdefund _ _ _ (.request new_aliceDefunds) ?_ _ _ u ledger sp ?_ hu hsigned
    · intro id c hc
      rw [← Option.some.inj hc]
      decide +kernel
    · intro x hx
      unfold defundingCalls at hx
      rcases List.mem_cons.1 hx with rfl | hx
      · exact key_plain
      · rcases List.mem_cons.1 hx with rfl | hx
        · exact key_plain
        · rw [List.mem_singleton.1 hx]
          trivial

end Nitro
