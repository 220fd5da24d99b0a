import Nitro.Contracts.NitroAdjudicator
import Nitro.Protocols.DepositSafety

/-!
# Deposits on the chain

`EthChainService.SendTransaction` for a deposit transaction: one contract call for every asset.  The
`expectedHeld` of a call is read from the chain when the call is made, so the check of the contract
compares the holdings with themselves, and a deposit goes through whatever the client had recorded.

* `Backend`                  the chain as the service sees it;
* `depositAsset`             the call for one asset; `sendDeposits` is the loop;
* `Accepted`                 when a call goes through;
* `Protected`                what the safety threshold and the target should guarantee;
* `deposit_protected_iff`    when they do.
-/

set_option linter.unusedSectionVars false

namespace Nitro
open Go FinMap Runs

namespace EthChainService
open Contracts (World Env)
open Contracts.MultiAssetHolder (deposit collect refundExcess isExternalDestination)

/-- how the chain answers a call: `env` is what the contract sees, apart from the value, and
`approves` tells whether a token takes the approval that comes before the call -/
structure Backend where
  env : Env
  approves : Int → Bool

/-- an amount as an argument of a call: it is packed modulo `2^256` -/
def word (amount : Int) : BitVec 256 := BitVec.ofInt 256 amount

/-- the call for one asset; an amount that does not fit cannot be sent as a value -/
def depositAsset (b : Backend) (channelId : Destination) (tokenAddress : Address) (amount : Int)
    (w : World) : Except String World :=
  let holdings := w.holdings tokenAddress channelId
  if tokenAddress = 0 then
    if 0 ≤ amount ∧ amount < 2 ^ 256 then
      deposit { b.env with value := word amount } tokenAddress channelId holdings (word amount) w
    else .error "invalid transaction value"
  else if b.approves amount then
    deposit { b.env with value := 0 } tokenAddress channelId holdings (word amount) w
  else .error "approval reverted"

/-- the loop over the assets, in the order in which the map is ranged over: every call is a
transaction of its own, and the first one that fails ends the loop with a panic -/
def sendDeposits (b : Address → Backend) (channelId : Destination) (deposits : Funds) :
    List Address → Meth World Unit
  | [] => pure ()
  | tokenAddress :: rest => fun w =>
    match depositAsset (b tokenAddress) channelId tokenAddress (deposits.amount tokenAddress) w with
    | .ok w' => sendDeposits b channelId deposits rest w'
    | .error reason => .error (.panic reason) w

/-! ## when a call goes through -/

/-- the channel is not an address, the amount is positive, the holdings do not overflow, and the token
or the receiver of the refund plays along -/
def Accepted (b : Backend) (channelId : Destination) (tokenAddress : Address) (amount : Int)
    (held : Nat) : Prop :=
  isExternalDestination channelId = false ∧ 0 < amount % 2 ^ 256 ∧ held + amount % 2 ^ 256 < 2 ^ 256 ∧
    if tokenAddress = 0 then 0 ≤ amount ∧ amount < 2 ^ 256 ∧ b.env.refunds 0 = true
    else b.approves amount = true ∧ b.env.transferFrom tokenAddress (word amount) = .ok true

theorem word_toNat (amount : Int) : ((word amount).toNat : Int) = amount % 2 ^ 256 := by
  unfold word
  rw [BitVec.toNat_ofInt]
  omega

section calls
variable {b : Backend} {channelId : Destination} {tokenAddress : Address} {amount : Int}
  {w w' : World}

theorem deposit_present_iff {env : Env} {v : BitVec 256} :
    deposit env tokenAddress channelId (w.holdings tokenAddress channelId) v w = .ok w' ↔
      isExternalDestination channelId = false ∧ 0 < v.toNat ∧
      (w.holdings tokenAddress channelId).toNat + v.toNat < 2 ^ 256 ∧
      (if tokenAddress = 0 then env.value = v ∧ env.refunds 0 = true
        else env.transferFrom tokenAddress v = .ok true) ∧
      w' = (w.setHoldings tokenAddress channelId (w.holdings tokenAddress channelId + v)).emit
        (.deposited channelId tokenAddress v (w.holdings tokenAddress channelId + v)) := by
  generalize hheld : w.holdings tokenAddress channelId = held
  by_cases hover : held.toNat + v.toNat < 2 ^ 256
  · have hadd : Evm.safeAdd held v = .ok (held + v) := if_pos hover
    have hsum : (held + v).toNat = held.toNat + v.toNat := by
      rw [BitVec.toNat_add]
      exact Nat.mod_eq_of_lt hover
    have hsub : Evm.safeSub (held + v) held = .ok v := by
      have hle : held ≤ held + v := by
        show held.toNat ≤ (held + v).toNat
        omega
      have hdiff : held + v - held = v := by bv_omega
      rw [Evm.safeSub, if_pos hle, hdiff]
    have hself : Evm.safeSub v v = .ok 0 := by
      rw [Evm.safeSub, if_pos (BitVec.le_refl v), BitVec.sub_self]
      rfl
    have hlt : held < held + v ↔ 0 < v.toNat := by
      show held.toNat < (held + v).toNat ↔ _
      omega
    have hcollect : ((collect env tokenAddress v v >>= fun _ =>
        refundExcess env tokenAddress v v) = .ok ()) ↔
        if tokenAddress = 0 then env.value = v ∧ env.refunds 0 = true
        else env.transferFrom tokenAddress v = .ok true := by
      unfold collect refundExcess
      split
      · rw [Evm.require_bind_eq_ok, hself]
        show _ ∧ Evm.require (env.refunds 0 = true) _ = .ok () ↔ _
        rw [Evm.require_eq_ok]
      · cases ht : env.transferFrom tokenAddress v with
        | error e => simp [bind, Except.bind]
        | ok success =>
          cases success with
          | true => simp [bind, Except.bind, Evm.require]
          | false => simp [bind, Except.bind, Evm.require]
    constructor
    · intro h
      unfold deposit at h
      obtain ⟨hext, h⟩ := Evm.require_bind_eq_ok.1 h
      obtain ⟨-, h⟩ := Evm.require_bind_eq_ok.1 h
      rw [hadd] at h
      obtain ⟨target, htarget, h⟩ := Evm.bind_eq_ok.1 h
      cases htarget
      obtain ⟨hpos, h⟩ := Evm.require_bind_eq_ok.1 h
      rw [hheld] at hpos h
      rw [hsub] at h
      obtain ⟨amountDeposited, hamount, h⟩ := Evm.bind_eq_ok.1 h
      cases hamount
      obtain ⟨⟨⟩, hpaid, h⟩ := Evm.bind_eq_ok.1 h
      rw [hadd] at h
      obtain ⟨nowHeld, hnow, h⟩ := Evm.bind_eq_ok.1 h
      cases hnow
      obtain ⟨⟨⟩, hrefund, hend⟩ := Evm.bind_eq_ok.1 h
      cases hend
      refine ⟨hext, hlt.1 hpos, hover, hcollect.1 ?_, rfl⟩
      rw [hpaid]
      exact hrefund
    · rintro ⟨hext, hpos, -, hpaid, rfl⟩
      obtain ⟨⟨⟩, hcollected, hrefund⟩ := Evm.bind_eq_ok.1 (hcollect.2 hpaid)
      unfold deposit
      refine Evm.require_bind_eq_ok.2 ⟨hext, Evm.require_bind_eq_ok.2 ⟨?_, ?_⟩⟩
      · rw [hheld]
        exact BitVec.le_refl held
      · rw [hadd, hheld]
        refine Evm.bind_eq_ok.2 ⟨_, rfl, Evm.require_bind_eq_ok.2 ⟨hlt.2 hpos, ?_⟩⟩
        rw [hsub]
        refine Evm.bind_eq_ok.2 ⟨_, rfl, Evm.bind_eq_ok.2 ⟨(), hcollected, ?_⟩⟩
        rw [hadd]
        exact Evm.bind_eq_ok.2 ⟨_, rfl, Evm.bind_eq_ok.2 ⟨(), hrefund, rfl⟩⟩
  · have hadd : Evm.safeAdd held v = .error "SafeMath: addition overflow" := if_neg hover
    constructor
    · intro h
      unfold deposit at h
      obtain ⟨-, h⟩ := Evm.require_bind_eq_ok.1 h
      obtain ⟨-, h⟩ := Evm.require_bind_eq_ok.1 h
      rw [hadd] at h
      cases h
    · rintro ⟨-, -, hsum, -⟩
      exact absurd hsum hover

/-- **the call goes through exactly when it is accepted**, and adds the whole amount -/
theorem depositAsset_ok_iff : depositAsset b channelId tokenAddress amount w = .ok w' ↔
    Accepted b channelId tokenAddress amount (w.holdings tokenAddress channelId).toNat ∧
    w' = (w.setHoldings tokenAddress channelId
      (w.holdings tokenAddress channelId + word amount)).emit (.deposited channelId tokenAddress
        (word amount) (w.holdings tokenAddress channelId + word amount)) := by
  have hword := word_toNat amount
  have hpos : 0 < (word amount).toNat ↔ 0 < amount % 2 ^ 256 := by omega
  have hsum : (w.holdings tokenAddress channelId).toNat + (word amount).toNat < 2 ^ 256 ↔
      ((w.holdings tokenAddress channelId).toNat : Int) + amount % 2 ^ 256 < 2 ^ 256 := by omega
  unfold depositAsset Accepted
  by_cases htoken : tokenAddress = 0
  · rw [if_pos htoken, if_pos htoken]
    by_cases hrange : 0 ≤ amount ∧ amount < 2 ^ 256
    · rw [if_pos hrange, deposit_present_iff, if_pos htoken, hpos, hsum]
      tauto
    · rw [if_neg hrange]
      constructor
      · intro h
        cases h
      · rintro ⟨⟨-, -, -, hle, hlt, -⟩, -⟩
        exact absurd ⟨hle, hlt⟩ hrange
  · rw [if_neg htoken, if_neg htoken]
    by_cases happroves : b.approves amount = true
    · rw [if_pos happroves, deposit_present_iff, if_neg htoken, hpos, hsum]
      tauto
    · rw [if_neg happroves]
      constructor
      · intro h
        cases h
      · rintro ⟨⟨-, -, -, h, -⟩, -⟩
        exact absurd h happroves

theorem depositAsset_held (h : depositAsset b channelId tokenAddress amount w = .ok w') :
    ((w'.holdings tokenAddress channelId).toNat : Int) =
      (w.holdings tokenAddress channelId).toNat + amount % 2 ^ 256 := by
  obtain ⟨⟨-, -, hsum, -⟩, rfl⟩ := depositAsset_ok_iff.1 h
  have hword := word_toNat amount
  show (((Function.update w.holdings tokenAddress _) tokenAddress channelId).toNat : Int) = _
  rw [Function.update_self, Function.update_self, BitVec.toNat_add]
  omega

theorem depositAsset_frame {asset : Address} (hne : asset ≠ tokenAddress)
    (h : depositAsset b channelId tokenAddress amount w = .ok w') :
    w'.holdings asset = w.holdings asset := by
  obtain ⟨-, rfl⟩ := depositAsset_ok_iff.1 h
  show (Function.update w.holdings tokenAddress _) asset = _
  rw [Function.update_of_ne hne]

end calls

theorem sendDeposits_frame {b : Address → Backend} {channelId : Destination} {deposits : Funds}
    {front : List Address} {asset : Address} {w u : World} (hfront : asset ∉ front)
    (h : sendDeposits b channelId deposits front w = .ok () u) :
    u.holdings asset = w.holdings asset := by
  induction front generalizing w with
  | nil =>
    cases h
    rfl
  | cons tokenAddress rest ih =>
    rw [List.mem_cons, not_or] at hfront
    obtain ⟨hne, hrest⟩ := hfront
    unfold sendDeposits at h
    cases hcall : depositAsset (b tokenAddress) channelId tokenAddress
        (deposits.amount tokenAddress) w with
    | error e =>
      rw [hcall] at h
      cases h
    | ok w' =>
      rw [hcall] at h
      rw [ih hrest h, depositAsset_frame hne hcall]

/-! ## re-orgs -/

/-- below the threshold the call fails, and otherwise the holdings do not pass the target -/
def Protected (b : Backend) (channelId : Destination) (asset : Address) (amount threshold target : Int)
    (w : World) : Prop :=
  ((w.holdings asset channelId).toNat < threshold →
    ∀ w', depositAsset b channelId asset amount w ≠ .ok w') ∧
  ∀ w', depositAsset b channelId asset amount w = .ok w' →
    (w'.holdings asset channelId).toNat ≤ max ((w.holdings asset channelId).toNat : Int) target

/-- **a deposit is protected exactly when the chain still holds the safety threshold and no more than
the client had recorded**, or when the call fails for another reason.  The amount is the target less
the recorded holdings, so the last condition says that the recorded holdings were not passed. -/
theorem deposit_protected_iff {cr : Crypto} {o : DirectFund.Objective} {sk : Bytes}
    {r : DirectFund.Objective.Cranked} {channelId : Destination} {deposits : Funds}
    {asset : Address} {amount : Int} {b : Address → Backend} {front : List Address} {w u : World}
    (hr : o.crank cr sk = .ok r)
    (htx : .deposit channelId deposits ∈ r.sideEffects.transactionsToSubmit)
    (hamount : deposits.lookup asset = some amount) (hfront : asset ∉ front)
    (hu : sendDeposits b channelId deposits front w = .ok () u) :
    ∃ h, o.c.onChainFunding.lookup asset = some h ∧
      amount = o.myDepositTarget.amount asset - h ∧
      (Protected (b asset) channelId asset amount (o.myDepositSafetyThreshold.amount asset)
          (o.myDepositTarget.amount asset) u ↔
        ¬ Accepted (b asset) channelId asset amount (w.holdings asset channelId).toNat ∨
        (o.myDepositSafetyThreshold.amount asset ≤ (w.holdings asset channelId).toNat ∧
          (w.holdings asset channelId).toNat + amount % 2 ^ 256 ≤
            o.myDepositTarget.amount asset)) := by
  obtain ⟨id', deposits', htx', hdeposits⟩ := (DirectFund.Objective.crank_ok hr).2.2 _ htx
  cases htx'
  obtain ⟨-, h, hh, hd⟩ := hdeposits.amounts asset amount hamount
  refine ⟨h, hh, hd, ?_⟩
  have hframe := sendDeposits_frame hfront hu
  rw [← hframe]
  constructor
  · rintro ⟨hbelow, habove⟩
    by_cases hacc : Accepted (b asset) channelId asset amount (u.holdings asset channelId).toNat
    · have hcall := depositAsset_ok_iff.2 ⟨hacc, rfl⟩
      have hheld := depositAsset_held hcall
      have hmax := habove _ hcall
      have hthreshold := fun hlt => hbelow hlt _ hcall
      obtain ⟨-, hpos, -⟩ := hacc
      refine .inr ⟨Int.not_lt.1 hthreshold, ?_⟩
      omega
    · exact .inl hacc
  · rintro (hnot | ⟨hthreshold, htarget⟩)
    · refine ⟨fun _ w' hcall => hnot (depositAsset_ok_iff.1 hcall).1, fun w' hcall => ?_⟩
      exact absurd (depositAsset_ok_iff.1 hcall).1 hnot
    · refine ⟨fun hlt => absurd hthreshold (Int.not_le.2 hlt), fun w' hcall => ?_⟩
      have hheld := depositAsset_held hcall
      omega

end EthChainService

/-! ## a deposit after a re-org -/

namespace Sample

/-- the second participant's objective -/
def secondObjective : DirectFund.Objective :=
  (DirectFund.constructFromState Crypto.plain true (fundingState fiveEach) 2).toOption.getD
    ⟨.unapproved, channel, ∅, ∅, ∅, 0, false⟩

/-- the first participant's signature on the prefund state -/
def firstSignature : ObjectiveEvent where
  objectiveId := secondObjective.id
  signedState := ⟨fundingState fiveEach,
    some ((∅ : SigMap).insert 0 (sigOn (fundingState fiveEach) 1))⟩
  signedProposal := SignedProposal.zero

/-- the objective after the signature and the first participant's deposit -/
def firstDeposited : DirectFund.Objective :=
  run (DirectFund.Objective.Call.step Crypto.plain) secondObjective
    [.update firstSignature, .updateWithChainEvent (.deposited secondObjective.c.id 1 0 5 5)]

/-- a chain on which everything is accepted -/
def backend : EthChainService.Backend where
  env := Contracts.Sample.env 0 100
  approves := fun _ => true

/-- the chain holds the first participant's deposit -/
def fiveHeld : Contracts.World := Contracts.World.empty.setHoldings 0 secondObjective.c.id 5

theorem firstDeposited_crank : ∃ r, firstDeposited.crank Crypto.plain (key 2) = .ok r ∧
    .deposit secondObjective.c.id ((∅ : Funds).insert 0 5) ∈
      r.sideEffects.transactionsToSubmit := by
  have heval : (firstDeposited.crank Crypto.plain (key 2) >>= fun r =>
      .ok r.sideEffects.transactionsToSubmit) =
        .ok [.deposit secondObjective.c.id ((∅ : Funds).insert 0 5)] := by decide +kernel
  obtain ⟨r, hcrank, htx⟩ := Res.bind_eq_ok.1 heval
  refine ⟨r, hcrank, ?_⟩
  rw [Except.ok.inj htx]
  exact List.mem_singleton_self _

theorem firstDeposited_target : firstDeposited.myDepositSafetyThreshold.amount 0 = 5 ∧
    firstDeposited.myDepositTarget.amount 0 = 10 := by decide +kernel

end Sample

namespace EthChainService
open Contracts (World)

theorem deposit_protected_five :
    Protected Sample.backend Sample.secondObjective.c.id 0 5 5 10 Sample.fiveHeld := by
  obtain ⟨r, hcrank, htx⟩ := Sample.firstDeposited_crank
  obtain ⟨hthreshold, htarget⟩ := Sample.firstDeposited_target
  have hfirst : sendDeposits (fun _ => Sample.backend) Sample.secondObjective.c.id
      ((∅ : Funds).insert 0 5) [] Sample.fiveHeld = .ok () Sample.fiveHeld := rfl
  obtain ⟨h, -, -, hiff⟩ := deposit_protected_iff hcrank htx (Finmap.lookup_insert _)
    List.not_mem_nil hfirst
  rw [hthreshold, htarget] at hiff
  have hheld : (Sample.fiveHeld.holdings 0 Sample.secondObjective.c.id).toNat = 5 := by
    decide +kernel
  refine hiff.2 (.inr ?_)
  rw [hheld]
  decide

/-- the client recorded five, its safety threshold, and the chain lost them in a re-org; the deposit
of five goes through all the same -/
theorem reorged_deposit_executed :
    (∃ r, Sample.firstDeposited.crank Crypto.plain (Sample.key 2) = .ok r ∧
      .deposit Sample.secondObjective.c.id ((∅ : Funds).insert 0 5) ∈
        r.sideEffects.transactionsToSubmit) ∧
    Sample.firstDeposited.myDepositSafetyThreshold.amount 0 = 5 ∧
    (World.empty.holdings 0 Sample.secondObjective.c.id).toNat = 0 ∧
    ∃ w', sendDeposits (fun _ => Sample.backend) Sample.secondObjective.c.id
        ((∅ : Funds).insert 0 5) [0] World.empty = .ok () w' ∧
      (w'.holdings 0 Sample.secondObjective.c.id).toNat = 5 := by
  refine ⟨Sample.firstDeposited_crank, Sample.firstDeposited_target.1, rfl, ?_⟩
  have hacc : Accepted Sample.backend Sample.secondObjective.c.id 0 5
      (World.empty.holdings 0 Sample.secondObjective.c.id).toNat := by
    refine ⟨?_, ?_, ?_, ?_⟩
    · decide +kernel
    · decide
    · decide
    · decide +kernel
  have hcall := depositAsset_ok_iff.2 ⟨hacc, rfl⟩
  have hheld := depositAsset_held hcall
  refine ⟨_, ?_, Int.ofNat.inj hheld⟩
  have hamount : Funds.amount ((∅ : Funds).insert 0 5) 0 = 5 := by decide
  unfold sendDeposits
  rw [hamount, hcall]
  rfl

end EthChainService
end Nitro
