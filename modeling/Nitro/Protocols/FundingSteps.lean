import Nitro.Lib.Runs
import Nitro.SetupStates
import Nitro.Consensus.Steps
import Nitro.Protocols.VirtualFund

/-!
# What the methods of a virtualfund objective do

A method works on a copy of the objective.  `Update` hands a proposal to one ledger and a state to `V`;
`Crank` signs, and every use of the key has its reason: the prefund state is signed first, a ledger
proposal when the prefund state is complete, and the postfund state when the ledgers are funded.

* `constructFromState_ok`     what a new objective is made of;
* `Keeps`                     what does not change from call to call, next to invariants of `V` and of
                              the ledgers;
* `Justified`                 the reasons;
* `progress_post`             **every use of the key is justified, whether or not `Crank` returns**;
* `Call.keeps_step`           the calls keep `Keeps`.
-/

set_option linter.unusedSectionVars false

namespace Nitro
open Go FinMap Runs

structure ConsensusChannel.Kept (cr : Crypto) (L : ConsensusChannel → Prop) : Prop where
  clone : ∀ {c c'}, L c → c.clone = .ok c' → L c'
  change : ∀ {c o c'}, L c → ConsensusChannel.Change cr c o c' → L c'

theorem ConsensusChannel.Kept.step {cr : Crypto} {L : ConsensusChannel → Prop} (hL : Kept cr L)
    {c : ConsensusChannel} (h : L c) (op : Op) : L (op.step cr c) := by
  rcases Op.step_cases cr c op with hsame | hchange
  · rwa [hsame]
  · exact hL.change h hchange

/-- the ledger that the constructor was given for a side, and the position of the participant to the
left on it -/
def Side.given (left right : Option ConsensusChannel) : Side → Option ConsensusChannel
  | .left => left
  | .right => right

def Side.position (myRole : Nat) : Side → Nat
  | .left => myRole - 1
  | .right => myRole

/-- everybody but Alice has a ledger to the left, and everybody but Bob one to the right -/
def Side.Adjacent (myRole : Nat) : Side → Prop
  | .left => myRole ≠ 0
  | .right => myRole ≠ 2

theorem RangeOrder.value_single (r : RangeOrder) {f : Funds} {asset : Address}
    (hf : f.keys = {asset}) : r.value f = some (f.amount asset) := by
  unfold RangeOrder.value
  cases hr : r.first f with
  | none =>
    rw [r.empty hr] at hf
    exact absurd (Finset.mem_singleton_self asset) (by rw [← hf]; simp)
  | some a =>
    have ha := Finmap.mem_keys.2 (r.mem hr)
    rw [hf, Finset.mem_singleton] at ha
    rw [ha]
    rfl

namespace VirtualFund

/-! ## a new objective -/

section building
variable {cr : Crypto} {s : State} {v : Channel} {a0 b0 : Funds} {n i : Nat}
variable {ledger : Option ConsensusChannel} {c : Connection}

theorem newConnection_ok {l : ConsensusChannel} (h : newConnection v a0 b0 i l = .ok c) :
    ∃ x y, v.fixedPart.participants[i]? = some x ∧ v.fixedPart.participants[i + 1]? = some y ∧
      c = ⟨l, addressToDestination x, addressToDestination y, a0, b0, v.id⟩ := by
  obtain ⟨x, hx, h⟩ := Res.bind_eq_ok.1 h
  obtain ⟨y, hy, h⟩ := Res.bind_eq_ok.1 h
  cases h
  exact ⟨x, y, index_eq_ok.1 hx, index_eq_ok.1 hy, rfl⟩

theorem connectionToMyRight_ok {x : Option Connection}
    (h : connectionToMyRight v a0 b0 n i ledger = .ok x) :
    i = n + 1 ∧ x = none ∨ i ≠ n + 1 ∧ ∃ l c, x = some c ∧ ledger = some l ∧
      newConnection v a0 b0 i l = .ok c := by
  unfold connectionToMyRight at h
  split at h
  · next hi =>
    cases h
    exact .inl ⟨hi, rfl⟩
  · next hi =>
    cases ledger with
    | none => cases h
    | some l =>
      obtain ⟨c, hc, hend⟩ := Res.bind_eq_ok.1 h
      cases hend
      exact .inr ⟨hi, l, c, rfl, rfl, hc⟩

theorem connectionToMyLeft_ok {x : Option Connection}
    (h : connectionToMyLeft v a0 b0 i ledger = .ok x) :
    i = 0 ∧ x = none ∨ i ≠ 0 ∧ ∃ l c, x = some c ∧ ledger = some l ∧
      newConnection v a0 b0 (i - 1) l = .ok c := by
  unfold connectionToMyLeft at h
  split at h
  · next hi =>
    cases h
    exact .inl ⟨hi, rfl⟩
  · next hi =>
    cases ledger with
    | none => cases h
    | some l =>
      obtain ⟨c, hc, hend⟩ := Res.bind_eq_ok.1 h
      cases hend
      exact .inr ⟨hi, l, c, rfl, rfl, hc⟩

/-- what a connection of `V` knows about its guarantee -/
def Informed (s : State) (V : Destination) (a0 b0 : Funds) (k : Nat) (info : GuaranteeInfo) : Prop :=
  ∃ x y, s.participants[k]? = some x ∧ s.participants[k + 1]? = some y ∧
    info = ⟨addressToDestination x, addressToDestination y, a0, b0, V⟩

theorem newSingleHopVirtualChannel_ok {i : Nat}
    (h : Channel.newSingleHopVirtualChannel cr s i = .ok v) :
    i ≤ 2 ∧ s.participants.length = 3 ∧ (∀ e ∈ s.outcome, e.allocations.length = 2) ∧
      Channel.new cr s i = .ok v := by
  obtain ⟨hi, h⟩ := failIf_bind_eq_ok.1 h
  obtain ⟨hlen, h⟩ := failIf_bind_eq_ok.1 h
  obtain ⟨hallocs, hnew⟩ := failIf_bind_eq_ok.1 h
  push Not at hi hlen hallocs
  exact ⟨hi, hlen, hallocs, hnew⟩

/-- **what a new objective is made of** -/
theorem constructFromState_ok {preApprove : Bool} {myAddress : Address}
    {left right : Option ConsensusChannel} {o : Objective}
    (h : constructFromState cr preApprove s myAddress left right = .ok o) :
    lastIndex myAddress s.participants = some o.myRole ∧ o.myRole ≤ 2 ∧ o.n = 1 ∧
    s.participants.length = 3 ∧ (∀ e ∈ s.outcome, e.allocations.length = 2) ∧
    Channel.new cr s o.myRole = .ok o.v ∧
    (∃ alice bob, s.participants[0]? = some alice ∧ s.participants[2]? = some bob ∧
      initialAmounts alice bob 1 s.outcome (∅, ∅) = .ok (o.a0, o.b0)) ∧
    ∀ side : Side, (side.Adjacent o.myRole ↔ ∃ c, o.connection side = some c) ∧
      ∀ c, o.connection side = some c → side.given left right = some c.channel ∧
        Informed s o.v.id o.a0 o.b0 (side.position o.myRole) c.guaranteeInfo := by
  unfold constructFromState at h
  cases hi : lastIndex myAddress s.participants with
  | none => rw [hi] at h; cases h
  | some myRole =>
    simp only [hi] at h
    obtain ⟨v, hv, h⟩ := Res.bind_eq_ok.1 h
    obtain ⟨alice, halice, h⟩ := Res.bind_eq_ok.1 h
    obtain ⟨bob, hbob, h⟩ := Res.bind_eq_ok.1 h
    obtain ⟨⟨a0, b0⟩, hamounts, h⟩ := Res.bind_eq_ok.1 h
    obtain ⟨toMyLeft, hleft, h⟩ := Res.bind_eq_ok.1 h
    obtain ⟨toMyRight, hright, hend⟩ := Res.bind_eq_ok.1 h
    cases hend
    obtain ⟨hrole, hlen, hallocs, hnew⟩ := newSingleHopVirtualChannel_ok hv
    obtain ⟨-, -, hfixed, -, -⟩ := Channel.new_ok hnew
    have hn : s.participants.length - 2 = 1 := by omega
    rw [hn] at hbob hamounts
    refine ⟨rfl, hrole, hn, hlen, hallocs, hnew,
      ⟨alice, bob, index_eq_ok.1 halice, index_eq_ok.1 hbob, hamounts⟩, fun side => ?_⟩
    -- a side without a ledger has no connection, and one with a ledger has the connection over it
    have hconn : ∀ (side : Side) {x : Option Connection} {l : ConsensusChannel} {c : Connection},
        side.Adjacent myRole → side.given left right = some l → x = some c →
        newConnection v a0 b0 (side.position myRole) l = .ok c →
        (side.Adjacent myRole ↔ ∃ c, x = some c) ∧ ∀ c, x = some c →
          side.given left right = some c.channel ∧
          Informed s v.id a0 b0 (side.position myRole) c.guaranteeInfo := by
      intro side x l c hadj hgiven hx hc
      refine ⟨⟨fun _ => ⟨c, hx⟩, fun _ => hadj⟩, fun c' hc' => ?_⟩
      obtain rfl : c = c' := Option.some.inj (hx.symm.trans hc')
      obtain ⟨p, q, hp, hq, rfl⟩ := newConnection_ok hc
      rw [hfixed] at hp hq
      exact ⟨hgiven, p, q, hp, hq, rfl⟩
    cases side with
    | left =>
      rcases connectionToMyLeft_ok hleft with ⟨hzero, rfl⟩ | ⟨hi, l, c, rfl, hl, hc⟩
      · exact ⟨⟨fun h => absurd hzero h, fun ⟨_, h⟩ => nomatch h⟩, fun _ h => nomatch h⟩
      · exact hconn .left hi hl rfl hc
    | right =>
      rw [hn] at hright
      rcases connectionToMyRight_ok hright with ⟨htwo, rfl⟩ | ⟨hi, l, c, rfl, hl, hc⟩
      · exact ⟨⟨fun h => absurd htwo h, fun ⟨_, h⟩ => nomatch h⟩, fun _ h => nomatch h⟩
      · exact hconn .right hi hl rfl hc

end building

/-- the initial state that a request stands for -/
def ObjectiveRequest.initialState (request : ObjectiveRequest) (me : Address) : State where
  chainId := some 9001
  participants := [me, request.intermediary, request.counterParty]
  channelNonce := some request.nonce
  appDefinition := 0
  challengeDuration := request.challengeDuration
  appData := request.appData
  outcome := request.outcome
  turnNum := 0
  isFinal := false

/-- an objective of the client `me` for `V` with initial state `s`, from a request or from a peer's
message -/
inductive Opened (cr : Crypto) (getLedger : Address → Option ConsensusChannel) (me : Address) :
    State → Objective → Prop
  | request {request : ObjectiveRequest} {preApprove : Bool} {o : Objective}
      (h : newObjective cr request preApprove me getLedger = .ok o) :
      Opened cr getLedger me (request.initialState me) o
  | message {s : State} {preapprove : Bool} {o : Objective}
      (h : constructObjectiveFromState cr s preapprove me getLedger = .ok o) :
      Opened cr getLedger me s o

theorem Opened.construct {cr : Crypto} {getLedger : Address → Option ConsensusChannel}
    {me : Address} {s : State} {o : Objective} (h : Opened cr getLedger me s o) :
    ∃ preApprove left right, constructFromState cr preApprove s me left right = .ok o ∧
      (∀ c, left = some c → ∃ a, getLedger a = some c) ∧
      (∀ c, right = some c → ∃ a, getLedger a = some c) := by
  cases h with
  | @request request preApprove o h =>
    unfold newObjective at h
    cases hl : getLedger request.intermediary with
    | none => rw [hl] at h; cases h
    | some c =>
      rw [hl] at h
      refine ⟨preApprove, none, some c, Res.wrap_eq_ok.1 h, (fun _ h' => nomatch h'), ?_⟩
      rintro _ ⟨⟩
      exact ⟨_, hl⟩
  | @message s preapprove o h =>
    obtain ⟨alice, -, h⟩ := Res.bind_eq_ok.1 h
    obtain ⟨intermediary, -, h⟩ := Res.bind_eq_ok.1 h
    obtain ⟨bob, -, h⟩ := Res.bind_eq_ok.1 h
    split at h
    · cases h
    · split at h
      · split at h
        · cases h
        · next leftC hl =>
          refine ⟨preapprove, some leftC, none, h, ?_, fun _ h' => nomatch h'⟩
          rintro _ ⟨⟩
          exact ⟨_, hl⟩
      · split at h
        · split at h
          · cases h
          · next leftC hl =>
            split at h
            · cases h
            · next rightC hr =>
              refine ⟨preapprove, some leftC, some rightC, h, ?_, ?_⟩
              · rintro _ ⟨⟩
                exact ⟨_, hl⟩
              · rintro _ ⟨⟩
                exact ⟨_, hr⟩
        · cases h

/-! ## one asset -/

namespace Connection
variable {c : Connection} {x y V : Destination} {a0 b0 : Funds} {asset : Address}

/-- with one asset it does not matter in which order a loop goes through the amounts -/
theorem getExpectedGuarantee_single (c : Connection) (r : RangeOrder)
    (hinfo : c.guaranteeInfo = ⟨x, y, a0, b0, V⟩) (ha : a0.keys = {asset})
    (hb : b0.keys = {asset}) :
    c.getExpectedGuarantee r = ⟨some (a0.amount asset + b0.amount asset), V, x, y⟩ := by
  have hkeys : (a0.add [b0]).keys = {asset} := by
    simp [Funds.add, Funds.sum, Funds.keys_accumulate, ha, hb]
  have hsum : (a0.add [b0]).amount asset = a0.amount asset + b0.amount asset := by
    simp [Funds.add, Funds.sum, Funds.amount_accumulate, Funds.amount_empty, add_comm]
  unfold getExpectedGuarantee
  rw [hinfo]
  show (⟨r.value _, V, _, _⟩ : Guarantee BigInt) = _
  rw [r.value_single hkeys, hsum]

theorem expectedProposal_single (c : Connection) (r r' : RangeOrder)
    (hinfo : c.guaranteeInfo = ⟨x, y, a0, b0, V⟩) (ha : a0.keys = {asset})
    (hb : b0.keys = {asset}) :
    c.expectedProposal r r' = newAddProposal c.channel.id
      ⟨some (a0.amount asset + b0.amount asset), V, x, y⟩ (some (a0.amount asset)) := by
  unfold expectedProposal
  rw [c.getExpectedGuarantee_single r hinfo ha hb, hinfo]
  show newAddProposal _ _ (r'.value _) = _
  rw [r'.value_single ha]

end Connection

structure OneAsset (e : Exit) (asset : Address) : Prop where
  ne_nil : e ≠ []
  asset_eq : ∀ x ∈ e, x.asset = asset

section amounts
variable {alice bob asset : Address} {n : Nat} {x : SingleAssetExit} {e : Exit} {f g : Funds}

theorem initialAmounts_cons {r : Funds × Funds}
    (h : initialAmounts alice bob n (x :: e) (f, g) = .ok r) :
    ∃ slot0 slot1 amount0 amount1, x.allocations[0]? = some slot0 ∧
      x.allocations[1]? = some slot1 ∧ slot0.amount = some amount0 ∧ slot1.amount = some amount1 ∧
      initialAmounts alice bob n e (f.insert x.asset (f.amount x.asset + amount0),
        g.insert x.asset (g.amount x.asset + amount1)) = .ok r := by
  obtain ⟨slot0, h0, h⟩ := Res.bind_eq_ok.1 h
  obtain ⟨-, h⟩ := failIf_bind_eq_ok.1 h
  obtain ⟨slot1, h1, h⟩ := Res.bind_eq_ok.1 h
  obtain ⟨-, h⟩ := failIf_bind_eq_ok.1 h
  obtain ⟨amount0, ha0, h⟩ := Res.bind_eq_ok.1 h
  obtain ⟨amount1, ha1, h⟩ := Res.bind_eq_ok.1 h
  exact ⟨slot0, slot1, amount0, amount1, index_eq_ok.1 h0, index_eq_ok.1 h1,
    BigInt.deref_eq_ok.1 ha0, BigInt.deref_eq_ok.1 ha1, h⟩

theorem keys_insert_of_subset (h : f.keys ⊆ {asset}) (m : Int) :
    Finmap.keys (f.insert asset m) = {asset} := by
  ext a
  rw [Finmap.mem_keys, Finmap.mem_insert, Finset.mem_singleton]
  constructor
  · rintro (rfl | ha)
    · rfl
    · exact Finset.mem_singleton.1 (h (Finmap.mem_keys.2 ha))
  · exact .inl

theorem initialAmounts_keys {f' g' : Funds} (he : OneAsset e asset) (hf : f.keys ⊆ {asset})
    (hg : g.keys ⊆ {asset}) (h : initialAmounts alice bob n e (f, g) = .ok (f', g')) :
    f'.keys = {asset} ∧ g'.keys = {asset} := by
  induction e generalizing f g with
  | nil => exact absurd rfl he.ne_nil
  | cons x e ih =>
    obtain ⟨slot0, slot1, amount0, amount1, -, -, -, -, h⟩ := initialAmounts_cons h
    obtain rfl := he.asset_eq x List.mem_cons_self
    have hf' := keys_insert_of_subset hf (f.amount x.asset + amount0)
    have hg' := keys_insert_of_subset hg (g.amount x.asset + amount1)
    cases e with
    | nil =>
      cases h
      exact ⟨hf', hg'⟩
    | cons y e =>
      refine ih ⟨List.cons_ne_nil y e, fun z hz => he.asset_eq z (List.mem_cons_of_mem x hz)⟩ ?_ ?_ h
      · exact hf'.subset
      · exact hg'.subset

end amounts

namespace Objective
variable {cr : Crypto} {o d d' : Objective}

/-! ## what stays -/

/-- the role, the facts about the guarantees and the invariants of the ledgers -/
structure Frame where
  myRole : Nat
  info : Side → GuaranteeInfo → Prop
  ledger : Side → ConsensusChannel → Prop

structure Keeps (V : Channel → Prop) (f : Frame) (o : Objective) : Prop where
  v : V o.v
  myRole : o.myRole = f.myRole
  n : o.n = 1
  connection : ∀ side c, o.connection side = some c →
    f.info side c.guaranteeInfo ∧ f.ledger side c.channel

variable {V V' : Channel → Prop} {f : Frame}

theorem Keeps.mono (h : Keeps V f o) (hV : V o.v → V' o.v) : Keeps V' f o :=
  { h with v := hV h.v }

theorem Keeps.setV (h : Keeps V f o) {v : Channel} (hv : V' v) : Keeps V' f { o with v := v } :=
  ⟨hv, h.myRole, h.n, h.connection⟩

theorem Keeps.setStatus (h : Keeps V f o) (status : ObjectiveStatus) :
    Keeps V f { o with status := status } :=
  ⟨h.v, h.myRole, h.n, h.connection⟩

theorem connection_setConnection {side side' : Side} {c c' : Connection}
    (h : (o.setConnection side c).connection side' = some c') :
    c' = c ∧ side' = side ∨ o.connection side' = some c' := by
  cases side with
  | left =>
    cases side' with
    | left => exact .inl ⟨(Option.some.inj h).symm, rfl⟩
    | right => exact .inr h
  | right =>
    cases side' with
    | left => exact .inr h
    | right => exact .inl ⟨(Option.some.inj h).symm, rfl⟩

theorem Keeps.setConnection (h : Keeps V f o) {side : Side} {c : Connection}
    (hc : f.info side c.guaranteeInfo ∧ f.ledger side c.channel) :
    Keeps V f (o.setConnection side c) := by
  refine ⟨?_, ?_, ?_, fun side' c' hc' => ?_⟩
  · cases side <;> exact h.v
  · cases side <;> exact h.myRole
  · cases side <;> exact h.n
  · rcases connection_setConnection hc' with ⟨rfl, rfl⟩ | hold
    · exact hc
    · exact h.connection side' c' hold

/-! ## copies and updates -/

theorem cloneConnection_some {x : Option Connection} {c' : Connection}
    (h : cloneConnection x = .ok (some c')) :
    ∃ c ledger, x = some c ∧ c.channel.clone = .ok ledger ∧ c' = { c with channel := ledger } := by
  cases x with
  | none => cases h
  | some c =>
    obtain ⟨ledger, hl, hend⟩ := Res.bind_eq_ok.1 h
    cases hend
    exact ⟨c, ledger, rfl, hl, rfl⟩

theorem clone_ok (h : o.clone cr = .ok d) :
    o.v.clone cr = .ok d.v ∧ d.status = o.status ∧ d.myRole = o.myRole ∧ d.n = o.n ∧
      ∀ side c', d.connection side = some c' → ∃ c ledger, o.connection side = some c ∧
        c.channel.clone = .ok ledger ∧ c' = { c with channel := ledger } := by
  obtain ⟨v, hv, h⟩ := Res.bind_eq_ok.1 h
  obtain ⟨toMyLeft, hleft, h⟩ := Res.bind_eq_ok.1 h
  obtain ⟨toMyRight, hright, hend⟩ := Res.bind_eq_ok.1 h
  cases hend
  refine ⟨hv, rfl, rfl, rfl, fun side c' hc' => ?_⟩
  cases side with
  | left =>
    have hc' : toMyLeft = some c' := hc'
    rw [hc'] at hleft
    exact cloneConnection_some hleft
  | right =>
    have hc' : toMyRight = some c' := hc'
    rw [hc'] at hright
    exact cloneConnection_some hright

theorem Keeps.clone (hL : ∀ side, ConsensusChannel.Kept cr (f.ledger side))
    (hV : ∀ v v', V v → v.clone cr = .ok v' → V' v') (h : Keeps V f o)
    (hd : o.clone cr = .ok d) : Keeps V' f d := by
  obtain ⟨hv, -, hrole, hn, hconn⟩ := clone_ok hd
  refine ⟨hV _ _ h.v hv, hrole.trans h.myRole, hn.trans h.n, fun side c' hc' => ?_⟩
  obtain ⟨c, ledger, hc, hl, rfl⟩ := hconn side c' hc'
  obtain ⟨hinfo, hledger⟩ := h.connection side c hc
  exact ⟨hinfo, (hL side).clone hledger hl⟩

theorem handleProposal_ok {sp : SignedProposal} {x : Option Connection} {c' : Connection}
    (h : Connection.handleProposal cr sp x = .ok c') :
    ∃ c, x = some c ∧
      c' = { c with channel := (ConsensusChannel.Op.receive sp).step cr c.channel } := by
  cases x with
  | none => cases h
  | some c =>
    obtain ⟨-, h⟩ := failIf_bind_eq_ok.1 h
    refine ⟨c, rfl, ?_⟩
    show c' = { c with channel := (ConsensusChannel.receive cr sp).after c.channel }
    cases hr : ConsensusChannel.receive cr sp c.channel with
    | ok u ledger =>
      simp only [hr] at h
      cases h
      rw [Meth.after_ok hr]
    | error e ledger =>
      simp only [hr] at h
      cases e with
      | err e =>
        cases h
        rw [Meth.after_error hr]
      | panic r => cases h

theorem updateLedger_ok {sp : SignedProposal} (h : o.updateLedger cr d sp = .ok d') :
    d' = d ∨ ∃ side c, d.connection side = some c ∧ d' = d.setConnection side
      { c with channel := (ConsensusChannel.Op.receive sp).step cr c.channel } := by
  obtain ⟨toMyLeftId, -, h⟩ := Res.bind_eq_ok.1 h
  obtain ⟨toMyRightId, -, h⟩ := Res.bind_eq_ok.1 h
  have hreceive : ∀ side, ((Connection.handleProposal cr sp (d.connection side)).wrap
      "error incorporating signed proposal %+v into objective: " >>= fun c =>
        .ok (d.setConnection side c)) = .ok d' →
      ∃ side c, d.connection side = some c ∧ d' = d.setConnection side
        { c with channel := (ConsensusChannel.Op.receive sp).step cr c.channel } := by
    intro side hside
    obtain ⟨c', hc', hend⟩ := Res.bind_eq_ok.1 hside
    obtain ⟨c, hc, rfl⟩ := handleProposal_ok (Res.wrap_eq_ok.1 hc')
    cases hend
    exact ⟨side, c, hc, rfl⟩
  split at h
  · cases h
    exact .inl rfl
  · split at h
    · cases h
    · split at h
      · exact .inr (hreceive .left h)
      · split at h
        · exact .inr (hreceive .right h)
        · cases h

theorem updateV_ok {ss : SignedState} (h : o.updateV cr d ss = .ok d') :
    d' = d ∨ d' = { d with v := (Channel.addSignedState cr ss).after d.v } := by
  unfold updateV at h
  split at h
  · cases h
    exact .inl rfl
  · obtain ⟨channelId, -, h⟩ := Res.bind_eq_ok.1 h
    obtain ⟨-, h⟩ := failIf_bind_eq_ok.1 h
    obtain ⟨-, h⟩ := failIf_bind_eq_ok.1 h
    obtain ⟨v, hv, hend⟩ := Res.bind_eq_ok.1 h
    cases hend
    rw [← Meth.exec_eq_ok hv]
    exact .inr rfl

theorem Keeps.update (hL : ∀ side, ConsensusChannel.Kept cr (f.ledger side)) {event : ObjectiveEvent}
    (hclone : ∀ v v', V v → v.clone cr = .ok v' → V' v')
    (hadd : ∀ v, V' v → V' ((Channel.addSignedState cr event.signedState).after v))
    (h : Keeps V f o) (hd : o.update cr event = .ok d) : Keeps V' f d := by
  obtain ⟨-, hd⟩ := failIf_bind_eq_ok.1 hd
  obtain ⟨copy, hcopy, hd⟩ := Res.bind_eq_ok.1 hd
  obtain ⟨next, hnext, hd⟩ := Res.bind_eq_ok.1 hd
  have hkeeps : Keeps V' f copy := h.clone hL hclone hcopy
  have hledger : Keeps V' f next := by
    rcases updateLedger_ok hnext with rfl | ⟨side, c, hc, rfl⟩
    · exact hkeeps
    · obtain ⟨hinfo, hledger⟩ := hkeeps.connection side c hc
      exact hkeeps.setConnection ⟨hinfo, (hL side).step hledger _⟩
  rcases updateV_ok hd with rfl | rfl
  · exact hledger
  · exact hledger.setV (hadd _ hledger.v)

theorem update_status {event : ObjectiveEvent} (h : o.update cr event = .ok d) :
    d.status = o.status := by
  obtain ⟨-, h⟩ := failIf_bind_eq_ok.1 h
  obtain ⟨copy, hcopy, h⟩ := Res.bind_eq_ok.1 h
  obtain ⟨next, hnext, h⟩ := Res.bind_eq_ok.1 h
  obtain ⟨-, hstatus, -⟩ := clone_ok hcopy
  have hledger : next.status = copy.status := by
    rcases updateLedger_ok hnext with rfl | ⟨side, c, -, rfl⟩
    · rfl
    · cases side <;> rfl
  rw [← hstatus, ← hledger]
  rcases updateV_ok h with rfl | rfl
  · rfl
  · rfl

/-! ## the reasons for using the key -/

inductive Justified (orders : Side → LoopOrders) : KeyUse Objective → Prop
  | prefund (o : Objective) : Justified orders ⟨o, .state o.v.preFundState⟩
  | ledger {o : Objective} {side : Side} {c : Connection} {sp : SignedProposal}
      (hpre : o.v.preFundComplete = true) (hc : o.connection side = some c)
      (hsp : sp.proposal =
        c.expectedProposal (orders side).proposal (orders side).leftAmount) :
      Justified orders ⟨o, .proposal c.channel sp⟩
  | postfund {o : Objective} (hpre : o.v.preFundComplete = true)
      (hfunded : o.fundingComplete orders = .ok true) :
      Justified orders ⟨o, .state o.v.postFundState⟩

/-- the states on which the key was used -/
def signedStates (uses : List (KeyUse Objective)) : List State :=
  uses.filterMap fun u => match u.signed with
    | .state s => some s
    | .proposal .. => none

def Work.states (k : Work) : List State := signedStates k.uses

/-- a property of the signatures in `V` may depend on what was signed so far: it lasts, and our own
signatures have it -/
structure Attests (cr : Crypto) (sk : Bytes) (A : List State → State → Signature → Prop) :
    Prop where
  mono : ∀ {l x s sig}, A l s sig → A (l ++ [x]) s sig
  own : ∀ {l s sig}, s.sign cr sk = .ok sig → A (l ++ [s]) s sig

/-- a use of the key with its reason, in an objective for `s` -/
structure Proper (cr : Crypto) (s : State) (f : Frame) (orders : Side → LoopOrders)
    (u : KeyUse Objective) : Prop where
  reason : Justified orders u
  keeps : Keeps (Channel.Ready cr (fun _ _ => True) s f.myRole) f u.during

structure Cranking (cr : Crypto) (A : List State → State → Signature → Prop) (s : State) (f : Frame)
    (orders : Side → LoopOrders) (k : Work) : Prop where
  keeps : Keeps (Channel.Ready cr (A k.states) s f.myRole) f k.updated
  uses : ∀ u ∈ k.uses, Proper cr s f orders u

section cranking
variable {A : List State → State → Signature → Prop} {s : State} {orders : Side → LoopOrders}
variable {sk : Bytes} {k : Work} {side : Side} {c : Connection}

theorem Work.states_use_state (k : Work) (s : State) :
    (k.use (.state s)).states = k.states ++ [s] := by
  simp [Work.states, signedStates, Work.use]

theorem Work.states_use_proposal (k : Work) (ledger : ConsensusChannel) (sp : SignedProposal) :
    (k.use (.proposal ledger sp)).states = k.states := by
  simp [Work.states, signedStates, Work.use]

namespace Cranking
variable (h : Cranking cr A s f orders k)
include h

theorem setV {v : Channel} (hv : Channel.Ready cr (A k.states) s f.myRole v) :
    Cranking cr A s f orders (k.setV v) := ⟨h.keeps.setV hv, h.uses⟩

theorem setConnection (hc : f.info side c.guaranteeInfo ∧ f.ledger side c.channel) :
    Cranking cr A s f orders (k.setConnection side c) := ⟨h.keeps.setConnection hc, h.uses⟩

theorem proper {x : Signed} (hx : Justified orders ⟨k.updated, x⟩) :
    ∀ u ∈ (k.use x).uses, Proper cr s f orders u := by
  intro u hu
  rcases List.mem_append.1 hu with hu | hu
  · exact h.uses u hu
  · rw [List.mem_singleton.1 hu]
    exact ⟨hx, h.keeps.mono fun hv => hv.mono fun _ _ _ => trivial⟩

theorem use_proposal {ledger : ConsensusChannel} {sp : SignedProposal}
    (hx : Justified orders ⟨k.updated, .proposal ledger sp⟩) :
    Cranking cr A s f orders (k.use (.proposal ledger sp)) := by
  refine ⟨?_, h.proper hx⟩
  rw [Work.states_use_proposal]
  exact h.keeps

theorem use_state (hA : Attests cr sk A) {x : State}
    (hx : Justified orders ⟨k.updated, .state x⟩) :
    Cranking cr A s f orders (k.use (.state x)) := by
  refine ⟨?_, h.proper hx⟩
  rw [Work.states_use_state]
  exact h.keeps.mono fun hv => hv.mono fun _ _ => hA.mono

end Cranking

/-- **signing a setup state**: afterwards only `V` is another one -/
theorem signSetup_post (hA : Attests cr sk A) (h : Cranking cr A s f orders k)
    {signedByMe : Channel → Bool} {state : Channel → State} {sign : Meth Channel SignedState}
    (hx : Justified orders ⟨k.updated, .state (state k.updated.v)⟩)
    (hsign : ∀ v, sign v = Channel.signAndAddState cr (state v) sk v) :
    (o.signSetup signedByMe state sign).Post k
      (fun _ k' => Cranking cr A s f orders k' ∧
        k'.updated = { k.updated with v := k'.updated.v } ∧
        (k'.states = k.states ∨ k'.states = k.states ++ [state k.updated.v]))
      (fun k' => ∀ u ∈ k'.uses, Proper cr s f orders u) := by
  apply Meth.post_bind
  apply Meth.post_get
  apply Meth.post_ite
  · intro _
    exact Meth.post_pure ⟨h, rfl, .inl rfl⟩
  · intro _
    have hused := h.use_state hA hx
    apply Meth.post_bind
    apply Meth.post_modify
    apply Meth.post_bind
    apply Meth.post_zoom
    have hafter : sign.after k.updated.v =
        (Channel.signAndAddState cr (state k.updated.v) sk).after k.updated.v := by
      unfold Meth.after
      rw [hsign]
    have hv : Channel.Ready cr (A (k.use (.state (state k.updated.v))).states) s f.myRole
        (sign.after k.updated.v) := by
      rw [hafter]
      refine hused.keeps.v.signAndAddState fun sig hsig => ?_
      rw [Work.states_use_state]
      exact hA.own hsig
    refine (Meth.post_after sign k.updated.v).mono ?_ ?_
    · rintro ss v rfl
      apply Meth.post_modify
      refine ⟨⟨(hused.setV hv).keeps, (hused.setV hv).uses⟩, rfl, .inr ?_⟩
      exact Work.states_use_state k _
    · rintro v rfl
      exact hused.uses

/-! ## ledgers -/

structure SameV (k k' : Work) : Prop where
  v : k'.updated.v = k.updated.v
  status : k'.updated.status = k.updated.status
  states : k'.states = k.states

theorem sameV_signed (k : Work) (side : Side) (c : Connection) (ledger : ConsensusChannel)
    (sp : SignedProposal) : SameV k ((k.use (.proposal ledger sp)).setConnection side c) := by
  refine ⟨?_, ?_, Work.states_use_proposal k ledger sp⟩
  · cases side <;> rfl
  · cases side <;> rfl

section ledgers
variable (hL : ∀ side, ConsensusChannel.Kept cr (f.ledger side)) (h : Cranking cr A s f orders k)
variable (hpre : k.updated.v.preFundComplete = true) (hc : k.updated.connection side = some c)
include hL h hpre hc

theorem Cranking.signed {sp : SignedProposal} {op : ConsensusChannel.Op}
    {ledger : ConsensusChannel} (hop : op.step cr c.channel = ledger)
    (hsp : sp.proposal = c.expectedProposal (orders side).proposal (orders side).leftAmount) :
    Cranking cr A s f orders ((k.use (.proposal c.channel sp)).setConnection side
      { c with channel := ledger }) := by
  obtain ⟨hinfo, hledger⟩ := h.keeps.connection side c hc
  refine (h.use_proposal (.ledger hpre hc hsp)).setConnection ⟨hinfo, ?_⟩
  rw [← hop]
  exact (hL side).step hledger op

theorem proposeLedgerUpdate_post : (proposeLedgerUpdate cr (orders side) sk side c).Post k
    (fun _ k' => Cranking cr A s f orders k' ∧ SameV k k')
    (fun k' => ∀ u ∈ k'.uses, Proper cr s f orders u) := by
  apply Meth.post_ite
  · intro _
    exact Meth.post_throw h.uses
  · intro _
    cases hp : ConsensusChannel.propose cr
      (c.expectedProposal (orders side).proposal (orders side).leftAmount) sk c.channel with
    | error e ledger =>
      exact Meth.post_throw h.uses
    | ok sp ledger =>
      have hnext := h.signed hL hpre hc (ConsensusChannel.Op.step_propose hp)
        (ConsensusChannel.propose_ok hp)
      apply Meth.post_bind
      apply Meth.post_modify
      apply Meth.post_bind
      apply Meth.post_modify
      apply Meth.post_bind
      apply Meth.post_lift
      · intro recipient _
        exact Meth.post_pure ⟨hnext, sameV_signed k side _ _ _⟩
      · exact hnext.uses

theorem acceptLedgerUpdate_post : (acceptLedgerUpdate cr (orders side) sk side c).Post k
    (fun _ k' => Cranking cr A s f orders k' ∧ SameV k k')
    (fun k' => ∀ u ∈ k'.uses, Proper cr s f orders u) := by
  unfold acceptLedgerUpdate
  cases hp : ConsensusChannel.signNextProposal cr
    (c.expectedProposal (orders side).proposal (orders side).leftAmount) sk c.channel with
  | error e ledger =>
    cases e with
    | err e => exact Meth.post_throw h.uses
    | panic r => exact Meth.post_throw h.uses
  | ok sp ledger =>
    have hnext := h.signed hL hpre hc (ConsensusChannel.Op.step_signNextProposal hp)
      (ConsensusChannel.signNextProposal_ok hp)
    apply Meth.post_bind
    apply Meth.post_modify
    apply Meth.post_bind
    apply Meth.post_modify
    apply Meth.post_bind
    apply Meth.post_lift
    · intro recipient _
      exact Meth.post_pure ⟨hnext, sameV_signed k side _ _ _⟩
    · exact hnext.uses

theorem updateLedgerWithGuarantee_post :
    (updateLedgerWithGuarantee cr (orders side) sk side c).Post k
      (fun _ k' => Cranking cr A s f orders k' ∧ SameV k k')
      (fun k' => ∀ u ∈ k'.uses, Proper cr s f orders u) := by
  have hsame : SameV k k := ⟨rfl, rfl, rfl⟩
  apply Meth.post_bind
  apply Meth.post_lift
  · intro proposed _
    apply Meth.post_ite
    · intro _
      apply Meth.post_ite
      · intro _
        exact Meth.post_pure ⟨h, hsame⟩
      · intro _
        exact Meth.post_wrap (proposeLedgerUpdate_post hL h hpre hc)
    · intro _
      apply Meth.post_bind
      apply Meth.post_lift
      · intro next _
        apply Meth.post_ite
        · intro _
          exact Meth.post_wrap (acceptLedgerUpdate_post hL h hpre hc)
        · intro _
          exact Meth.post_pure ⟨h, hsame⟩
      · exact h.uses
  · exact h.uses

end ledgers

theorem getConnection_ok (h : o.getConnection side = .ok c) : o.connection side = some c := by
  unfold getConnection at h
  cases hc : o.connection side with
  | none => rw [hc] at h; cases h
  | some c' =>
    rw [hc] at h
    cases h
    rfl

/-- **funded ledgers**: each of them includes the guarantee that is expected -/
theorem fundingComplete_ok (h : o.fundingComplete orders = .ok true) (hn : o.n = 1)
    (hadj : side.Adjacent o.myRole) :
    ∃ c, o.connection side = some c ∧ c.funded (orders side).complete = true := by
  have hfunded : ∀ side : Side, (do
      let c ← o.getConnection side
      .ok (c.funded (orders side).complete) : Res Bool) = .ok true →
      ∃ c, o.connection side = some c ∧ c.funded (orders side).complete = true := by
    intro side hside
    obtain ⟨c, hc, hend⟩ := Res.bind_eq_ok.1 hside
    exact ⟨c, getConnection_ok hc, Except.ok.inj hend⟩
  unfold fundingComplete at h
  by_cases halice : o.isAlice = true
  · rw [if_pos halice] at h
    cases side with
    | left => exact absurd (of_decide_eq_true halice) hadj
    | right => exact hfunded .right h
  · rw [if_neg halice] at h
    by_cases hbob : o.isBob = true
    · rw [if_pos hbob] at h
      have hrole : o.myRole = o.n + 1 := of_decide_eq_true hbob
      rw [hn] at hrole
      cases side with
      | left => exact hfunded .left h
      | right => exact absurd hrole hadj
    · rw [if_neg hbob] at h
      obtain ⟨right, hright, h⟩ := Res.bind_eq_ok.1 h
      cases right with
      | false => cases h
      | true =>
        cases side with
        | left => exact hfunded .left h
        | right => exact hfunded .right hright

theorem SameV.trans {k₁ k₂ : Work} (h₁ : SameV k k₁) (h₂ : SameV k₁ k₂) : SameV k k₂ :=
  ⟨h₂.v.trans h₁.v, h₂.status.trans h₁.status, h₂.states.trans h₁.states⟩

theorem fund_post (hL : ∀ side, ConsensusChannel.Kept cr (f.ledger side)) (h : Cranking cr A s f orders k)
    (hpre : k.updated.v.preFundComplete = true) (side : Side) (missing : Bool) :
    (fund cr (orders side) sk side missing).Post k
      (fun _ k' => Cranking cr A s f orders k' ∧ SameV k k')
      (fun k' => ∀ u ∈ k'.uses, Proper cr s f orders u) := by
  apply Meth.post_ite
  · intro _
    exact Meth.post_pure ⟨h, rfl, rfl, rfl⟩
  · intro _
    apply Meth.post_bind
    apply Meth.post_get
    apply Meth.post_bind
    apply Meth.post_lift
    · intro c hc
      apply Meth.post_ite
      · intro _
        exact Meth.post_pure ⟨h, rfl, rfl, rfl⟩
      · intro _
        apply Meth.post_bind
        refine (Meth.post_wrap
          (updateLedgerWithGuarantee_post hL h hpre (getConnection_ok hc))).mono ?_ fun _ h' => h'
        rintro se k' ⟨hk', hsame⟩
        apply Meth.post_modify
        exact ⟨⟨hk'.keeps, hk'.uses⟩, hsame.v, hsame.status, hsame.states⟩
    · exact h.uses

/-! ## the whole of `Crank` -/

/-- what a `Crank` that returns leaves behind: the postfund state was signed with funded ledgers, and
the objective is done only if everybody signed both setup states -/
structure Advanced (cr : Crypto) (A : List State → State → Signature → Prop) (s : State) (f : Frame)
    (orders : Side → LoopOrders) (k : Work) : Prop where
  cranking : Cranking cr A s f orders k
  signed : ∀ x ∈ k.states, x = s.copied ∨
    x = s.postfund ∧ k.updated.fundingComplete orders = .ok true
  completed : k.updated.status = .approved ∨ s.turnNum = preFundTurnNum ∧
    Channel.AllSigned cr (A k.states) s.copied ∧ Channel.AllSigned cr (A k.states) s.postfund

theorem progressPostfund_post (hA : Attests cr sk A) (h : Cranking cr A s f orders k)
    (hstatus : k.updated.status = .approved) (hpre : k.updated.v.preFundComplete = true)
    (hfunded : k.updated.fundingComplete orders = .ok true)
    (hstates : ∀ x ∈ k.states, x = s.copied) (hturn : s.turnNum = preFundTurnNum)
    (hall : Channel.AllSigned cr (A k.states) s.copied) :
    (o.progressPostfund cr sk).Post k (fun _ k' => Advanced cr A s f orders k')
      (fun k' => ∀ u ∈ k'.uses, Proper cr s f orders u) := by
  apply Meth.post_bind
  refine (signSetup_post hA h (.postfund hpre hfunded) fun _ => rfl).mono ?_ fun _ h' => h'
  rintro ⟨⟩ k₁ ⟨h₁, hupdated, hgrow⟩
  have hfunded₁ : k₁.updated.fundingComplete orders = .ok true := by
    rw [hupdated]
    exact hfunded
  have hstatus₁ : k₁.updated.status = .approved := by
    rw [hupdated]
    exact hstatus
  have hsigned : ∀ x ∈ k₁.states, x = s.copied ∨
      x = s.postfund ∧ k₁.updated.fundingComplete orders = .ok true := by
    intro x hx
    rcases hgrow with hsame | hnew
    · rw [hsame] at hx
      exact .inl (hstates x hx)
    · rw [hnew, List.mem_append, List.mem_singleton, h.keeps.v.postFundState_eq] at hx
      rcases hx with hx | rfl
      · exact .inl (hstates x hx)
      · exact .inr ⟨rfl, hfunded₁⟩
  have hall₁ : Channel.AllSigned cr (A k₁.states) s.copied := by
    rcases hgrow with hsame | hnew
    · rwa [hsame]
    · rw [hnew]
      exact hall.mono fun _ _ => hA.mono
  apply Meth.post_bind
  apply Meth.post_get
  apply Meth.post_ite
  · intro _
    exact Meth.post_pure ⟨h₁, hsigned, .inl hstatus₁⟩
  · intro hcomplete
    have hpost := h₁.keeps.v.post.allSigned (Bool.not_eq_false _ ▸ hcomplete)
    apply Meth.post_bind
    apply Meth.post_modify
    exact Meth.post_pure ⟨⟨h₁.keeps.setStatus _, h₁.uses⟩, hsigned, .inr ⟨hturn, hall₁, hpost⟩⟩

theorem progressFunding_post (hL : ∀ side, ConsensusChannel.Kept cr (f.ledger side)) (hA : Attests cr sk A)
    (h : Cranking cr A s f orders k) (hstatus : k.updated.status = .approved)
    (hpre : k.updated.v.preFundComplete = true) (hstates : ∀ x ∈ k.states, x = s.copied)
    (hne : s.participants ≠ []) :
    (o.progressFunding cr orders sk).Post k (fun _ k' => Advanced cr A s f orders k')
      (fun k' => ∀ u ∈ k'.uses, Proper cr s f orders u) := by
  apply Meth.post_bind
  apply Meth.post_get
  apply Meth.post_bind
  refine (fund_post hL h hpre .left _).mono ?_ fun _ h' => h'
  rintro ⟨⟩ k₁ ⟨h₁, hsame₁⟩
  have hpre₁ : k₁.updated.v.preFundComplete = true := by
    rw [hsame₁.v]
    exact hpre
  apply Meth.post_bind
  refine (fund_post hL h₁ hpre₁ .right _).mono ?_ fun _ h' => h'
  rintro ⟨⟩ k₂ ⟨h₂, hstep⟩
  have hsame₂ := hsame₁.trans hstep
  apply Meth.post_bind
  apply Meth.post_get
  apply Meth.post_bind
  apply Meth.post_lift
  · intro complete hcomplete
    apply Meth.post_ite
    · intro _
      refine Meth.post_pure ⟨h₂, fun x hx => .inl ?_, .inl (hsame₂.status.trans hstatus)⟩
      rw [hsame₂.states] at hx
      exact hstates x hx
    · intro hfunded
      rw [Bool.not_eq_false] at hfunded
      rw [hfunded] at hcomplete
      have hpre₂ : k₂.updated.v.preFundComplete = true := by
        rw [hsame₂.v]
        exact hpre
      have hall := h₂.keeps.v.pre.allSigned hpre₂
      obtain ⟨a, rest, hcons⟩ := List.exists_cons_of_ne_nil hne
      have hturn : s.turnNum = preFundTurnNum :=
        (h₂.keeps.v.pre.complete (j := 0) (a := a) hpre₂ (by
          show s.participants[0]? = some a
          rw [hcons]
          rfl)).1
      refine progressPostfund_post hA h₂ (hsame₂.status.trans hstatus) hpre₂ hcomplete ?_ hturn hall
      intro x hx
      rw [hsame₂.states] at hx
      exact hstates x hx
  · exact h₂.uses

/-- **every use of the key is justified, whether or not `Crank` returns** -/
theorem progress_post (o : Objective) (orders : Side → LoopOrders)
    (hL : ∀ side, ConsensusChannel.Kept cr (f.ledger side)) (hA : Attests cr sk A)
    (hne : s.participants ≠ []) (hd : Keeps (Channel.Ready cr (A []) s f.myRole) f d)
    (hstatus : d.status = .approved) :
    (o.progress cr orders sk).Post ⟨d, .empty, []⟩ (fun _ k' => Advanced cr A s f orders k')
      (fun k' => ∀ u ∈ k'.uses, Proper cr s f orders u) := by
  have hstart : Cranking cr A s f orders ⟨d, .empty, []⟩ := ⟨hd, fun u hu => nomatch hu⟩
  apply Meth.post_bind
  refine (signSetup_post hA hstart (.prefund d) fun _ => rfl).mono ?_ fun _ h' => h'
  rintro ⟨⟩ k ⟨h, hupdated, hgrow⟩
  have hstatus' : k.updated.status = .approved := by
    rw [hupdated]
    exact hstatus
  have hstates : ∀ x ∈ k.states, x = s.copied := by
    intro x hx
    rcases hgrow with hsame | hnew
    · rw [hsame] at hx
      cases hx
    · rw [hnew, hd.v.preFundState_eq] at hx
      exact List.mem_singleton.1 hx
  apply Meth.post_bind
  apply Meth.post_get
  apply Meth.post_ite
  · intro _
    exact Meth.post_pure ⟨h, fun x hx => .inl (hstates x hx), .inl hstatus'⟩
  · intro hcomplete
    exact progressFunding_post hL hA h hstatus' (Bool.not_eq_false _ ▸ hcomplete) hstates hne

/-- a `Crank` that fails returns the objective or a copy of it -/
theorem crank_ok (hL : ∀ side, ConsensusChannel.Kept cr (f.ledger side)) (hA : Attests cr sk A)
    (hne : s.participants ≠ []) (h : Keeps (Channel.Setup cr (A []) s f.myRole) f o)
    {r : Cranked} (hr : o.crank cr orders sk = .ok r) :
    r.err ≠ none ∧ (r.updated = o ∨ o.clone cr = .ok r.updated) ∨
    r.err = none ∧ ∃ k, Advanced cr A s f orders k ∧ r.updated = k.updated ∧
      o.crankUses cr orders sk = k.uses := by
  obtain ⟨d, hd, hr⟩ := Res.bind_eq_ok.1 hr
  by_cases hstatus : d.status = .approved
  · rw [if_neg (not_not.2 hstatus)] at hr
    have hready := h.clone hL (fun _ _ hv => hv.clone) hd
    have hpost := progress_post o orders hL hA hne hready hstatus
    have huses : o.crankUses cr orders sk =
        ((o.progress cr orders sk).after ⟨d, .empty, []⟩).uses := by
      simp [crankUses, hd, hstatus]
    cases hrun : o.progress cr orders sk ⟨d, .empty, []⟩ with
    | ok w k =>
      rw [hrun] at hr
      cases hr
      refine .inr ⟨rfl, k, hpost.ok hrun, rfl, ?_⟩
      rw [huses, Meth.after_ok hrun]
    | error e k =>
      rw [hrun] at hr
      cases e with
      | err e =>
        cases hr
        exact .inl ⟨Option.some_ne_none e, .inl rfl⟩
      | panic r => cases hr
  · rw [if_pos hstatus] at hr
    cases hr
    exact .inl ⟨Option.some_ne_none _, .inr hd⟩

/-! ## runs -/

theorem attests_true (sk : Bytes) : Attests cr sk fun _ _ _ => True := ⟨fun _ => trivial, fun _ => trivial⟩

/-- what every call keeps, whatever a peer sends -/
abbrev Runs (cr : Crypto) (s : State) (f : Frame) : Objective → Prop :=
  Keeps (Channel.Setup cr (fun _ _ => True) s f.myRole) f

variable (hL : ∀ side, ConsensusChannel.Kept cr (f.ledger side)) (hne : s.participants ≠ [])
variable (h : Runs cr s f o)
include hL hne h

theorem crankUses_proper : ∀ u ∈ o.crankUses cr orders sk, Proper cr s f orders u := by
  unfold crankUses
  cases hd : o.clone cr with
  | error e => exact fun u hu => nomatch hu
  | ok d =>
    by_cases hstatus : d.status = .approved
    · have hready := h.clone hL (fun _ _ hv => hv.clone) hd
      have hpost := progress_post o orders hL (attests_true sk) hne hready hstatus
      simp only [ne_eq, hstatus, not_true_eq_false, if_false]
      exact (hpost.mono (fun _ _ hk => hk.cranking.uses) fun _ hk => hk).after
    · simp only [ne_eq, hstatus, not_false_eq_true, if_true]
      exact fun u hu => nomatch hu

theorem Call.keeps_step (call : Call) : Runs cr s f (call.step cr o) := by
  have hcopy : ∀ d, o.clone cr = .ok d → Runs cr s f d := fun d hd =>
    (h.clone hL (fun _ _ hv => hv.clone) hd).mono .inr
  cases call with
  | approve =>
    refine Res.getD_ind h fun d hd => ?_
    obtain ⟨x, hx, hend⟩ := Res.bind_eq_ok.1 hd
    cases hend
    exact (hcopy x hx).setStatus _
  | reject =>
    refine Res.getD_ind h fun d hd => ?_
    obtain ⟨x, hx, hend⟩ := Res.bind_eq_ok.1 hd
    cases hend
    exact (hcopy x hx).setStatus _
  | update event =>
    refine Res.getD_ind h fun d hd => ?_
    have hupdate : Keeps (Channel.Ready cr (fun _ _ => True) s f.myRole) f d :=
      h.update hL (fun _ _ hv => hv.clone)
        (fun v hv => hv.addSignedState fun _ _ _ _ _ => trivial) hd
    exact hupdate.mono .inr
  | crank orders sk =>
    refine Res.map_getD_ind h fun r hr => ?_
    rcases crank_ok hL (attests_true sk) hne h hr with
      ⟨-, hsame | hd⟩ | ⟨-, k, hk, hupdated, -⟩
    · rwa [hsame]
    · exact hcopy _ hd
    · rw [hupdated]
      exact hk.cranking.keeps.mono .inr

theorem run_keeps (calls : List Call) : Runs cr s f (run (Call.step cr) o calls) :=
  run_inv (fun _ call h => Call.keeps_step hL hne h call) h

theorem Call.uses_proper {call : Call} {u : KeyUse Objective} (hu : u ∈ call.uses cr o) :
    ∃ orders, Proper cr s f orders u := by
  cases call with
  | crank orders sk => exact ⟨orders, crankUses_proper hL hne h u hu⟩
  | approve => cases hu
  | reject => cases hu
  | update event => cases hu

end cranking

end Objective

/-- what a new objective keeps -/
def Objective.frame (s : State) (o : Objective) (L : Side → ConsensusChannel → Prop) :
    Objective.Frame where
  myRole := o.myRole
  info side := Informed s o.v.id o.a0 o.b0 (side.position o.myRole)
  ledger := L

section opened
variable {cr : Crypto} {getLedger : Address → Option ConsensusChannel} {me : Address} {s : State}
variable {o : Objective} {L : Side → ConsensusChannel → Prop}

theorem Opened.not_completed (h : Opened cr getLedger me s o) : o.status ≠ .completed := by
  obtain ⟨preApprove, _, _, h, -, -⟩ := h.construct
  unfold constructFromState at h
  split at h
  · cases h
  · obtain ⟨_, -, h⟩ := Res.bind_eq_ok.1 h
    obtain ⟨_, -, h⟩ := Res.bind_eq_ok.1 h
    obtain ⟨_, -, h⟩ := Res.bind_eq_ok.1 h
    obtain ⟨⟨_, _⟩, -, h⟩ := Res.bind_eq_ok.1 h
    obtain ⟨_, -, h⟩ := Res.bind_eq_ok.1 h
    obtain ⟨_, -, hend⟩ := Res.bind_eq_ok.1 h
    cases hend
    cases preApprove with
    | true => exact fun hdone => nomatch hdone
    | false => exact fun hdone => nomatch hdone

theorem Opened.participants_ne_nil (h : Opened cr getLedger me s o) : s.participants ≠ [] := by
  obtain ⟨_, _, _, h, -, -⟩ := h.construct
  obtain ⟨-, -, -, hlen, -⟩ := constructFromState_ok h
  intro hnil
  rw [hnil] at hlen
  cases hlen

theorem Opened.keeps {G : State → Signature → Prop} (h : Opened cr getLedger me s o)
    (hL : ∀ side c, o.connection side = some c → L side c.channel) :
    Objective.Keeps (Channel.Setup cr G s o.myRole) (o.frame s L) o := by
  obtain ⟨_, left, right, h, -, -⟩ := h.construct
  obtain ⟨-, -, hn, -, -, hnew, -, hconn⟩ := constructFromState_ok h
  refine ⟨.inl hnew, rfl, hn, fun side c hc => ?_⟩
  obtain ⟨-, hinfo⟩ := (hconn side).2 c hc
  exact ⟨hinfo, hL side c hc⟩

theorem Opened.adjacent_iff (h : Opened cr getLedger me s o) (side : Side) :
    side.Adjacent o.myRole ↔ ∃ c, o.connection side = some c := by
  obtain ⟨_, _, _, h, -, -⟩ := h.construct
  obtain ⟨-, -, -, -, -, -, -, hconn⟩ := constructFromState_ok h
  exact (hconn side).1

theorem Opened.stored (h : Opened cr getLedger me s o) {side : Side} {c : Connection}
    (hc : o.connection side = some c) : ∃ a, getLedger a = some c.channel := by
  obtain ⟨_, left, right, h, hleft, hright⟩ := h.construct
  obtain ⟨-, -, -, -, -, -, -, hconn⟩ := constructFromState_ok h
  obtain ⟨hgiven, -⟩ := (hconn side).2 c hc
  cases side with
  | left => exact hleft _ hgiven
  | right => exact hright _ hgiven

theorem Opened.amounts_keys {asset : Address} (h : Opened cr getLedger me s o)
    (hs : OneAsset s.outcome asset) : o.a0.keys = {asset} ∧ o.b0.keys = {asset} := by
  obtain ⟨_, _, _, h, -, -⟩ := h.construct
  obtain ⟨-, -, -, -, -, -, ⟨_, _, -, -, hamounts⟩, -⟩ := constructFromState_ok h
  exact initialAmounts_keys hs (Finset.empty_subset _) (Finset.empty_subset _) hamounts

end opened
end VirtualFund

end Nitro
