import Mathlib.Data.FinEnum
import Nitro.Contracts.NitroAdjudicator

/-!
# The adjudicator pays no more than was deposited

For every asset, what all channels hold and what was paid out add up to no more than the deposits.  Deposits,
transfers and claims keep this for any arguments.  Liquidating a whole outcome keeps it if, for
every asset, the entries of the outcome in that asset can be paid together: the holdings are read
once per entry and debited afterwards, so an asset that is listed twice is paid twice.

* `accounted`, `deposited`, `Solvent`   the two sides;
* `Covers`                 the holdings cover the entries of an outcome in each asset;
* `transfer_solvent`, `claim_solvent`, `transferAllAssets_solvent`   the functions that pay;
* `solvent_of_covered`     every run.
-/

set_option linter.unusedSectionVars false

namespace Nitro.Contracts
open Evm Accounts MultiAssetHolder ForceMove NitroAdjudicator

/-! ## the two sides -/

def amounts (l : List Allocation) : Nat := (l.map fun a => a.amount.toNat).sum

/-- what an event says about deposits -/
def Event.depositedIn (asset : Address) : Event → Nat
  | .deposited _ asset' amountDeposited _ => if asset' = asset then amountDeposited.toNat else 0
  | _ => 0

namespace World

def paid (w : World) (asset : Address) : Nat :=
  (w.payments.map fun p => if p.asset = asset then p.amount.toNat else 0).sum

def deposited (w : World) (asset : Address) : Nat :=
  (w.events.map (Event.depositedIn asset)).sum

/-- all holdings of an asset, and all payments -/
def accounted (w : World) (asset : Address) : Nat := total (w.holdings asset) + w.paid asset

def Solvent (w : World) : Prop := ∀ asset, w.accounted asset ≤ w.deposited asset

section updates
variable {w : World} {asset a : Address} {channelId : Bytes32}

@[simp] theorem accounted_setStatus (status : Bytes32) :
    (w.setStatus channelId status).accounted a = w.accounted a := rfl

@[simp] theorem accounted_emit (e : Event) : (w.emit e).accounted a = w.accounted a := rfl

@[simp] theorem deposited_setStatus (status : Bytes32) :
    (w.setStatus channelId status).deposited a = w.deposited a := rfl

@[simp] theorem deposited_setHoldings (amount : Word) :
    (w.setHoldings asset channelId amount).deposited a = w.deposited a := rfl

@[simp] theorem deposited_emit (e : Event) :
    (w.emit e).deposited a = w.deposited a + e.depositedIn a := by
  simp [deposited, emit]

theorem accounted_setHoldings_ne (amount : Word) (h : asset ≠ a) :
    (w.setHoldings asset channelId amount).accounted a = w.accounted a := by
  have hsame : (w.setHoldings asset channelId amount).holdings a = w.holdings a := by
    simp [setHoldings, Ne.symm h]
  unfold accounted
  rw [hsame]
  rfl

theorem accounted_setHoldings_self (amount : Word) :
    (w.setHoldings asset channelId amount).accounted asset =
      total (Function.update (w.holdings asset) channelId amount) + w.paid asset := by
  have hsame : (w.setHoldings asset channelId amount).holdings asset =
      Function.update (w.holdings asset) channelId amount := by
    simp [setHoldings]
  unfold accounted
  rw [hsame]
  rfl

theorem accounted_debit {v : Word} (h : v ≤ w.holdings asset channelId) :
    (w.setHoldings asset channelId (w.holdings asset channelId - v)).accounted a +
      (if asset = a then v.toNat else 0) = w.accounted a := by
  by_cases he : asset = a
  · subst he
    have hdebit := total_debit h
    rw [accounted_setHoldings_self, if_pos rfl]
    unfold accounted
    omega
  · rw [accounted_setHoldings_ne _ he, if_neg he]
    rfl

theorem accounted_credit_le (w : World) (asset a : Address) (channelId : Bytes32) (v : Word) :
    (w.setHoldings asset channelId (w.holdings asset channelId + v)).accounted a ≤
      w.accounted a + (if asset = a then v.toNat else 0) := by
  by_cases he : asset = a
  · subst he
    have hcredit := total_credit_le (w.holdings asset) channelId v
    rw [accounted_setHoldings_self, if_pos rfl]
    unfold accounted
    omega
  · rw [accounted_setHoldings_ne _ he, if_neg he]
    exact Nat.le_refl _

/-- a channel alone may hold more than was deposited -/
theorem deposited_lt_of_holdings (channelId : Bytes32)
    (h : w.deposited a < (w.holdings a channelId).toNat) : w.deposited a < w.accounted a := by
  have hle := le_total (w.holdings a) channelId
  unfold accounted
  omega

theorem paid_append (w : World) (p : Payment) :
    World.paid { w with payments := w.payments ++ [p] } a =
      w.paid a + (if p.asset = a then p.amount.toNat else 0) := by
  simp [paid]

end updates

end World

/-! ## paying -/

section paying
variable {env : Env} {w w' : World} {asset a : Address}

/-- what paying a list of allocations changes: the payments and the holdings, by no more than the
amounts -/
structure Pays (asset : Address) (n : Nat) (w w' : World) : Prop where
  events : w'.events = w.events
  accounted : ∀ a, w'.accounted a ≤ w.accounted a + (if asset = a then n else 0)

theorem Pays.trans {m n : Nat} {w'' : World} (h : Pays asset m w w') (h' : Pays asset n w' w'') :
    Pays asset (m + n) w w'' := by
  refine ⟨h'.events.trans h.events, fun a => ?_⟩
  have h₁ := h.accounted a
  have h₂ := h'.accounted a
  by_cases he : asset = a
  · rw [if_pos he] at h₁ h₂ ⊢
    omega
  · rw [if_neg he] at h₁ h₂ ⊢
    omega

theorem payAllocations_pays {l : List Allocation} (h : payAllocations env asset l w = .ok w') :
    Pays asset (amounts l) w w' := by
  induction l generalizing w with
  | nil =>
    cases h
    exact ⟨rfl, fun a => Nat.le_add_right _ _⟩
  | cons b l ih =>
    have hsum : amounts (b :: l) = b.amount.toNat + amounts l := List.sum_cons
    rw [hsum]
    unfold payAllocations at h
    split at h
    · obtain ⟨u, hpay, h⟩ := bind_eq_ok.1 h
      refine Pays.trans ⟨?_, fun a => ?_⟩ (ih h)
      · rw [transferAsset_ok hpay]
      · rw [transferAsset_ok hpay]
        show total (w.holdings a) + _ ≤ total (w.holdings a) + _ + _
        rw [World.paid_append, Nat.add_assoc]
    · refine Pays.trans ?_ (ih h)
      exact ⟨rfl, fun a => w.accounted_credit_le asset a b.destination b.amount⟩

end paying

/-! ## what is to be paid -/

theorem toNat_minWord (a b : Word) : (minWord a b).toNat = min a.toNat b.toNat := by
  unfold minWord
  split
  · next h =>
    have h' : b.toNat < a.toNat := h
    omega
  · next h =>
    have h' : ¬ b.toNat < a.toNat := h
    omega

theorem minWord_le_right (a b : Word) : minWord a b ≤ b := by
  show (minWord a b).toNat ≤ b.toNat
  rw [toNat_minWord]
  exact Nat.min_le_right _ _

theorem amounts_set_le (l : List Allocation) (k : Nat) (x : Allocation) :
    amounts (l.set k x) ≤ amounts l + x.amount.toNat := by
  induction l generalizing k with
  | nil => exact Nat.zero_le _
  | cons b l ih =>
    cases k with
    | zero =>
      simp only [List.set_cons_zero, amounts, List.map_cons, List.sum_cons]
      omega
    | succ k =>
      have hrest := ih k
      simp only [amounts] at hrest
      simp only [List.set_cons_succ, amounts, List.map_cons, List.sum_cons]
      omega

theorem amounts_replicate (n : Nat) : amounts (List.replicate n default) = 0 := by
  induction n with
  | zero => rfl
  | succ n ih =>
    rw [List.replicate_succ]
    show (0 : Word).toNat + amounts _ = 0
    rw [ih]
    rfl

/-- of `h`, part is to be paid and part is left; what is to be paid covers the exits -/
structure Split (h : Nat) (exits : List Allocation) (payouts surplus : Word) : Prop where
  exits : amounts exits ≤ payouts.toNat
  held : payouts.toNat + surplus.toNat ≤ h

theorem Split.payouts_add {h : Nat} {exits : List Allocation} {payouts surplus v : Word}
    (hs : Split h exits payouts surplus) (hh : h < 2 ^ 256) (hv : v ≤ surplus) :
    (payouts + v).toNat = payouts.toNat + v.toNat := by
  have hv' : v.toNat ≤ surplus.toNat := hv
  have hheld := hs.held
  rw [BitVec.toNat_add]
  exact Nat.mod_eq_of_lt (by omega)

/-- `v` moves from what is left to what is to be paid, and the exits grow by no more -/
theorem Split.pay {h : Nat} {exits exits' : List Allocation} {payouts surplus v : Word}
    (hs : Split h exits payouts surplus) (hh : h < 2 ^ 256) (hv : v ≤ surplus)
    (hexits : amounts exits' ≤ amounts exits + v.toNat) :
    Split h exits' (payouts + v) (surplus - v) := by
  have hv' : v.toNat ≤ surplus.toNat := hv
  have hle := hs.exits
  have hheld := hs.held
  refine ⟨?_, ?_⟩
  · rw [hs.payouts_add hh hv]
    omega
  · rw [hs.payouts_add hh hv, BitVec.toNat_sub_of_le hv]
    omega

theorem Split.skip {h : Nat} {exits : List Allocation} {payouts surplus v : Word}
    (hs : Split h exits payouts surplus) (hv : v ≤ surplus) :
    Split h exits payouts (surplus - v) := by
  have hheld := hs.held
  refine ⟨hs.exits, ?_⟩
  rw [BitVec.toNat_sub_of_le hv]
  omega

section transfers
variable {D : Deployment} {allocations : List Allocation} {indices : List Word}

abbrev TransferSplit (h : Nat) (s : TransferState) : Prop :=
  Split h s.exitAllocations s.totalPayouts s.surplus

theorem transferStep_split {h i : Nat} {b : Allocation} {s s' : TransferState} (hh : h < 2 ^ 256)
    (hs : TransferSplit h s) (hstep : transferStep D allocations indices i b s = .ok s') :
    TransferSplit h s' ∧ s'.totalPayouts.toNat ≤ s.totalPayouts.toNat + b.amount.toNat := by
  have hv := minWord_le_right b.amount s.surplus
  have hb : (minWord b.amount s.surplus).toNat ≤ b.amount.toNat := by
    rw [toNat_minWord]
    exact Nat.min_le_left _ _
  unfold transferStep at hstep
  split at hstep
  · obtain ⟨atK, -, hstep⟩ := bind_eq_ok.1 hstep
    obtain ⟨-, hend⟩ := require_bind_eq_ok.1 hstep
    cases hend
    refine ⟨hs.pay hh hv (amounts_set_le _ _ _), ?_⟩
    show (s.totalPayouts + minWord b.amount s.surplus).toNat ≤ _
    rw [hs.payouts_add hh hv]
    omega
  · cases hstep
    exact ⟨hs.skip hv, Nat.le_add_right _ _⟩

theorem transferLoop_split {h i : Nat} {l : List Allocation} {s s' : TransferState}
    (hh : h < 2 ^ 256) (hs : TransferSplit h s)
    (hloop : transferLoop D allocations indices i l s = .ok s') :
    TransferSplit h s' ∧ s'.totalPayouts.toNat ≤ s.totalPayouts.toNat + amounts l := by
  induction l generalizing i s with
  | nil =>
    cases hloop
    exact ⟨hs, Nat.le_add_right _ _⟩
  | cons b l ih =>
    obtain ⟨u, hstep, hloop⟩ := bind_eq_ok.1 hloop
    obtain ⟨hu, hle⟩ := transferStep_split hh hs hstep
    obtain ⟨hs', hle'⟩ := ih hu hloop
    have hsum : amounts (b :: l) = b.amount.toNat + amounts l := List.sum_cons
    exact ⟨hs', by omega⟩

/-- **a transfer pays no more than is held**, and no more than is allocated -/
theorem computeTransfer_le {holdings : Word} {r : TransferState}
    (h : computeTransferEffectsAndInteractions D holdings allocations indices = .ok r) :
    amounts r.exitAllocations ≤ r.totalPayouts.toNat ∧ r.totalPayouts ≤ holdings ∧
      r.totalPayouts.toNat ≤ amounts allocations := by
  have hstart : TransferSplit holdings.toNat
      { newAllocations := []
        allocatesOnlyZeros := true
        exitAllocations :=
          List.replicate (if 0 < indices.length then indices.length else allocations.length) default
        totalPayouts := 0
        surplus := holdings
        k := 0 } := by
    refine ⟨?_, ?_⟩
    · rw [amounts_replicate]
      exact Nat.zero_le _
    · simp
  obtain ⟨hsplit, hle⟩ := transferLoop_split holdings.isLt hstart h
  have hheld := hsplit.held
  refine ⟨hsplit.exits, ?_, ?_⟩
  · show r.totalPayouts.toNat ≤ holdings.toNat
    omega
  · simpa using hle

end transfers

section claims
variable {indexOfTargetInSource : Nat} {indices : List Word}

theorem amounts_modify_le (l : List Allocation) (i : Nat) (v : Word) :
    amounts (l.modify i fun b => { b with amount := v }) ≤ amounts l + v.toNat := by
  induction l generalizing i with
  | nil =>
    rw [List.modify_nil]
    exact Nat.le_add_right _ _
  | cons b l ih =>
    cases i with
    | zero =>
      simp only [List.modify_zero_cons, amounts, List.map_cons, List.sum_cons]
      omega
    | succ i =>
      have hrest := ih i
      simp only [amounts] at hrest
      simp only [List.modify_succ_cons, amounts, List.map_cons, List.sum_cons]
      omega

abbrev ClaimSplit (h : Nat) (s : ClaimState) : Prop :=
  Split h s.exitAllocations s.totalPayouts s.targetSurplus

theorem claimSearch_inv {I : ClaimState → Prop} {destination : Bytes32} {l : List Allocation}
    {i : Nat} {s : ClaimState}
    (hpay : ∀ i b s, I s → I (claimPay indexOfTargetInSource indices i b s)) (h : I s) :
    I (claimSearch indexOfTargetInSource indices destination i l s) := by
  induction l generalizing i with
  | nil => exact h
  | cons b l ih =>
    unfold claimSearch
    split
    · exact h
    · split
      · exact hpay i b s h
      · exact ih

theorem claimLoop_inv {I : ClaimState → Prop} (indexOfTargetInSource : Nat) (indices : List Word)
    (l : List Allocation) (destinations : List Bytes32) {s : ClaimState}
    (hpay : ∀ i b s, I s → I (claimPay indexOfTargetInSource indices i b s)) (h : I s) :
    I (claimLoop indexOfTargetInSource indices l destinations s) := by
  induction destinations generalizing s with
  | nil => exact h
  | cons d ds ih =>
    unfold claimLoop
    split
    · exact h
    · exact ih (claimSearch_inv hpay h)

theorem claimPay_split {h i : Nat} {b : Allocation} {s : ClaimState} (hh : h < 2 ^ 256)
    (hs : ClaimSplit h s) : ClaimSplit h (claimPay indexOfTargetInSource indices i b s) := by
  have hv := minWord_le_right b.amount s.targetSurplus
  unfold claimPay
  split
  · exact hs.pay hh hv (amounts_modify_le _ _ _)
  · exact hs.skip hv

theorem sourceSurplus_le {l : List Allocation} {n : Nat} {v v' : Word}
    (h : sourceSurplus l n v = .ok v') : v'.toNat ≤ v.toNat := by
  induction l generalizing n v with
  | nil =>
    cases n with
    | zero =>
      cases h
      exact Nat.le_refl _
    | succ n =>
      unfold sourceSurplus at h
      split at h
      · cases h
        exact Nat.le_refl _
      · cases h
  | cons b l ih =>
    cases n with
    | zero =>
      cases h
      exact Nat.le_refl _
    | succ n =>
      unfold sourceSurplus at h
      split at h
      · cases h
        exact Nat.le_refl _
      · have hrest := ih h
        rw [BitVec.toNat_sub_of_le (minWord_le_right b.amount v)] at hrest
        omega

theorem amounts_zeroed (l : List Allocation) :
    amounts (l.map fun a => { a with amount := 0 }) = 0 := by
  induction l with
  | nil => rfl
  | cons b l ih =>
    rw [List.map_cons]
    show (0 : Word).toNat + amounts _ = 0
    rw [ih]
    rfl

/-- **a claim pays no more than is held** -/
theorem computeClaim_le {holdings : Word} {source target : List Allocation} {r : ClaimState}
    (h : computeClaimEffectsAndInteractions holdings source target indexOfTargetInSource indices =
      .ok r) : amounts r.exitAllocations ≤ r.totalPayouts.toNat ∧ r.totalPayouts ≤ holdings := by
  obtain ⟨surplus, hsurplus, h⟩ := bind_eq_ok.1 h
  obtain ⟨guarantee, -, h⟩ := bind_eq_ok.1 h
  obtain ⟨destinations, -, hend⟩ := bind_eq_ok.1 h
  cases hend
  have hsurplus := sourceSurplus_le hsurplus
  have hmin : (minWord surplus guarantee.amount).toNat ≤ surplus.toNat := by
    rw [toNat_minWord]
    exact Nat.min_le_left _ _
  have hstart : ClaimSplit holdings.toNat
      { newSourceAllocations := source
        newTargetAllocations := target
        exitAllocations := target.map fun a => { a with amount := 0 }
        totalPayouts := 0
        targetSurplus := minWord surplus guarantee.amount
        k := 0 } := by
    refine ⟨?_, ?_⟩
    · rw [amounts_zeroed]
      exact Nat.zero_le _
    · show 0 + (minWord surplus guarantee.amount).toNat ≤ holdings.toNat
      omega
  have hsplit := claimLoop_inv indexOfTargetInSource indices target destinations
    (fun i b s hs => claimPay_split holdings.isLt hs) hstart
  have hheld := hsplit.held
  refine ⟨hsplit.exits, ?_⟩
  show BitVec.toNat _ ≤ holdings.toNat
  omega

end claims

/-! ## the functions -/

section functions
variable {D : Deployment} {env : Env} {w w' : World}

theorem World.Solvent.of_debit {asset : Address} {channelId : Bytes32} {v : Word} {n : Nat}
    {u : World} (hw : w.Solvent) (hheld : v ≤ w.holdings asset channelId) (hn : n ≤ v.toNat)
    (hdeposited : ∀ a, u.deposited a = w.deposited a)
    (hdebited : ∀ a, u.accounted a =
      (w.setHoldings asset channelId (w.holdings asset channelId - v)).accounted a)
    (hpay : Pays asset n u w') : w'.Solvent := by
  intro a
  have hdeposits : w'.deposited a = w.deposited a := by
    rw [← hdeposited a]
    unfold World.deposited
    rw [hpay.events]
  have hpaid := hpay.accounted a
  have hdebit := World.accounted_debit (a := a) hheld
  have hsolvent := hw a
  rw [← hdebited a] at hdebit
  by_cases he : asset = a
  · rw [if_pos he] at hpaid hdebit
    omega
  · rw [if_neg he] at hpaid hdebit
    omega

theorem deposit_solvent {asset : Address} {channelId : Bytes32} {expectedHeld amount : Word}
    (h : MultiAssetHolder.deposit env asset channelId expectedHeld amount w = .ok w')
    (hw : w.Solvent) : w'.Solvent := by
  obtain ⟨amountDeposited, rfl⟩ := deposit_ok h
  intro a
  have hcredit := w.accounted_credit_le asset a channelId amountDeposited
  have hsolvent := hw a
  rw [World.deposited_emit, World.accounted_emit, World.deposited_setHoldings]
  show _ ≤ _ + if asset = a then amountDeposited.toNat else 0
  omega

@[simp] theorem deposited_updateFingerprint (w : World) (c s o : Bytes32) (a : Address) :
    (updateFingerprint D w c s o).deposited a = w.deposited a := rfl

@[simp] theorem accounted_updateFingerprint (w : World) (c s o : Bytes32) (a : Address) :
    (updateFingerprint D w c s o).accounted a = w.accounted a := rfl

@[simp] theorem depositedIn_allocationUpdated (c : Bytes32) (i h : Word) (a : Address) :
    (Event.allocationUpdated c i h).depositedIn a = 0 := rfl

theorem transfer_solvent {assetIndex : Word} {fromChannelId stateHash : Bytes32}
    {outcomeBytes : Bytes} {indices : List Word}
    (h : MultiAssetHolder.transfer D env assetIndex fromChannelId outcomeBytes stateHash indices w =
      .ok w') (hw : w.Solvent) : w'.Solvent := by
  obtain ⟨⟨outcome, e⟩, -, h⟩ := bind_eq_ok.1 h
  obtain ⟨r, hr, hpay⟩ := bind_eq_ok.1 h
  obtain ⟨hexits, hheld, -⟩ := computeTransfer_le hr
  refine hw.of_debit hheld hexits (fun a => ?_) (fun a => ?_) (payAllocations_pays hpay)
  · simp [applyTransferEffects]
  · simp [applyTransferEffects]

theorem applyClaimChecks_asset {args : ClaimArgs}
    {r : Exit × SingleAssetExit × Exit × SingleAssetExit × Bytes32}
    (h : applyClaimChecks D env args w = .ok r) : r.2.2.2.1.asset = r.2.1.asset := by
  obtain ⟨_, -, h⟩ := bind_eq_ok.1 h
  obtain ⟨-, h⟩ := require_bind_eq_ok.1 h
  obtain ⟨-, h⟩ := require_bind_eq_ok.1 h
  obtain ⟨_, -, h⟩ := bind_eq_ok.1 h
  obtain ⟨_, -, h⟩ := bind_eq_ok.1 h
  obtain ⟨_, -, h⟩ := bind_eq_ok.1 h
  obtain ⟨_, -, h⟩ := bind_eq_ok.1 h
  obtain ⟨-, h⟩ := require_bind_eq_ok.1 h
  obtain ⟨_, -, h⟩ := bind_eq_ok.1 h
  obtain ⟨_, -, h⟩ := bind_eq_ok.1 h
  obtain ⟨hasset, h⟩ := require_bind_eq_ok.1 h
  obtain ⟨-, h⟩ := require_bind_eq_ok.1 h
  obtain ⟨-, hend⟩ := require_bind_eq_ok.1 h
  cases hend
  exact hasset

theorem claim_solvent {args : ClaimArgs} (h : MultiAssetHolder.claim D env args w = .ok w')
    (hw : w.Solvent) : w'.Solvent := by
  obtain ⟨⟨sourceOutcome, source, targetOutcome, target, targetChannelId⟩, hchecks, h⟩ :=
    bind_eq_ok.1 h
  have hasset : target.asset = source.asset := applyClaimChecks_asset hchecks
  obtain ⟨r, hr, hpay⟩ := bind_eq_ok.1 h
  obtain ⟨hexits, hheld⟩ := computeClaim_le hr
  have hpays := payAllocations_pays hpay
  rw [show ({ target with allocations := r.exitAllocations } : SingleAssetExit).asset = source.asset
    from hasset] at hpays
  refine hw.of_debit hheld hexits (fun a => ?_) (fun a => ?_) hpays
  · simp [applyClaimEffects]
  · simp [applyClaimEffects]

end functions

/-! ## liquidating an outcome -/

/-- what the entries of an outcome in an asset are paid, each out of `h` -/
def payable (h : Nat) (asset : Address) (outcome : Exit) : Nat :=
  (outcome.map fun e => if e.asset = asset then min h (amounts e.allocations) else 0).sum

/-- in every asset, the holdings of the channel cover the entries of the outcome together -/
def World.Covers (w : World) (channelId : Bytes32) (outcome : Exit) : Prop :=
  ∀ asset, payable (w.holdings asset channelId).toNat asset outcome ≤
    (w.holdings asset channelId).toNat

def payouts (asset : Address) (ls : List Liquidation) : Nat :=
  (ls.map fun l =>
    if l.assetOutcome.asset = asset then l.effects.totalPayouts.toNat else 0).sum

def exited (asset : Address) (exit : Exit) : Nat :=
  (exit.map fun e => if e.asset = asset then amounts e.allocations else 0).sum

section liquidation
variable {D : Deployment} {env : Env} {w w' : World} {channelId : Bytes32}

theorem liquidate_le {outcome : Exit} {ls : List Liquidation}
    (h : liquidate D channelId w outcome = .ok ls) (asset : Address) :
    exited asset (ls.map Liquidation.exit) ≤ payouts asset ls ∧
      payouts asset ls ≤ payable (w.holdings asset channelId).toNat asset outcome := by
  induction outcome generalizing ls with
  | nil =>
    cases h
    exact ⟨Nat.le_refl _, Nat.le_refl _⟩
  | cons e es ih =>
    obtain ⟨effects, heffects, h⟩ := bind_eq_ok.1 h
    obtain ⟨rest, hrest, hend⟩ := bind_eq_ok.1 h
    cases hend
    obtain ⟨hexits, hheld, halloc⟩ := computeTransfer_le heffects
    obtain ⟨ih₁, ih₂⟩ := ih hrest
    simp only [exited, payouts, payable, List.map_cons, List.sum_cons] at ih₁ ih₂ ⊢
    by_cases he : e.asset = asset
    · have hheld' : effects.totalPayouts.toNat ≤ (w.holdings asset channelId).toNat := he ▸ hheld
      have hmin := Nat.le_min.2 ⟨hheld', halloc⟩
      simp only [Liquidation.exit, he, if_true] at ih₁ ⊢
      exact ⟨by omega, by omega⟩
    · simp only [Liquidation.exit, he, if_false] at ih₁ ⊢
      exact ⟨by omega, by omega⟩

theorem holdings_debit {asset a : Address} {v : Word} (h : v ≤ w.holdings asset channelId) :
    ((w.setHoldings asset channelId (w.holdings asset channelId - v)).holdings a channelId).toNat +
      (if asset = a then v.toNat else 0) = (w.holdings a channelId).toNat := by
  by_cases he : asset = a
  · subst he
    have hle : v.toNat ≤ (w.holdings asset channelId).toNat := h
    simp only [World.setHoldings, Function.update_self, if_true]
    rw [BitVec.toNat_sub_of_le h]
    omega
  · simp [World.setHoldings, he, Ne.symm he]

theorem debitAll_accounted {i : Nat} {ls : List Liquidation}
    (h : ∀ a, payouts a ls ≤ (w.holdings a channelId).toNat) (a : Address) :
    (debitAll channelId i ls w).accounted a + payouts a ls = w.accounted a := by
  induction ls generalizing i w with
  | nil => rfl
  | cons l ls ih =>
    have hcons : ∀ b, payouts b (l :: ls) =
        (if l.assetOutcome.asset = b then l.effects.totalPayouts.toNat else 0) + payouts b ls :=
      fun b => List.sum_cons
    have hv : l.effects.totalPayouts ≤ w.holdings l.assetOutcome.asset channelId := by
      have hself := h l.assetOutcome.asset
      rw [hcons, if_pos rfl] at hself
      show l.effects.totalPayouts.toNat ≤ _
      omega
    have hdebit := World.accounted_debit (a := a) hv
    have hrest := ih (i := i + 1) (w := (w.setHoldings l.assetOutcome.asset channelId
      (w.holdings l.assetOutcome.asset channelId - l.effects.totalPayouts)).emit
        (.allocationUpdated channelId (BitVec.ofNat 256 i) l.initialHoldings)) fun b => by
      have hb := h b
      have hheld := holdings_debit (a := b) hv
      rw [hcons] at hb
      show _ ≤ ((w.setHoldings _ _ _).holdings b channelId).toNat
      omega
    rw [World.accounted_emit] at hrest
    rw [hcons]
    show (debitAll channelId (i + 1) ls _).accounted a + _ = _
    omega

theorem debitAll_deposited {i : Nat} {ls : List Liquidation} (a : Address) :
    (debitAll channelId i ls w).deposited a = w.deposited a := by
  induction ls generalizing i w with
  | nil => rfl
  | cons l ls ih =>
    show (debitAll channelId (i + 1) ls _).deposited a = _
    rw [ih]
    simp

theorem executeExit_le {exit : Exit} (h : executeExit env exit w = .ok w') (a : Address) :
    w'.accounted a ≤ w.accounted a + exited a exit ∧ w'.deposited a = w.deposited a := by
  induction exit generalizing w with
  | nil =>
    cases h
    exact ⟨Nat.le_refl _, rfl⟩
  | cons e es ih =>
    obtain ⟨u, hpay, h⟩ := bind_eq_ok.1 h
    have hpays := payAllocations_pays hpay
    obtain ⟨hle, hdeposited⟩ := ih h
    have hfirst := hpays.accounted a
    have hcons : exited a (e :: es) =
        (if e.asset = a then amounts e.allocations else 0) + exited a es := List.sum_cons
    refine ⟨by omega, hdeposited.trans ?_⟩
    unfold World.deposited
    rw [hpays.events]

theorem transferAllAssets_solvent {outcome : Exit} {stateHash : Bytes32}
    (h : NitroAdjudicator.transferAllAssets D env channelId outcome stateHash w = .ok w')
    (hcovers : w.Covers channelId outcome) (hw : w.Solvent) : w'.Solvent := by
  obtain ⟨-, h⟩ := require_bind_eq_ok.1 h
  obtain ⟨-, h⟩ := require_bind_eq_ok.1 h
  obtain ⟨ls, hls, hexec⟩ := bind_eq_ok.1 h
  have hpayouts : ∀ a, payouts a ls ≤ (w.holdings a channelId).toNat := fun a =>
    (liquidate_le hls a).2.trans (hcovers a)
  have hsettle : ∀ a,
      (settleStatus D channelId stateHash ls (debitAll channelId 0 ls w)).accounted a =
        (debitAll channelId 0 ls w).accounted a ∧
      (settleStatus D channelId stateHash ls (debitAll channelId 0 ls w)).deposited a =
        (debitAll channelId 0 ls w).deposited a := by
    intro a
    unfold settleStatus
    split
    · exact ⟨rfl, rfl⟩
    · exact ⟨rfl, rfl⟩
  intro a
  obtain ⟨hle, hdeposited⟩ := executeExit_le hexec a
  have hdebit := debitAll_accounted (i := 0) hpayouts a
  have hexited := (liquidate_le hls a).1
  have hsolvent := hw a
  rw [(hsettle a).1] at hle
  rw [hdeposited, (hsettle a).2, debitAll_deposited]
  omega

theorem World.covers_of_nodup {outcome : Exit} (h : (outcome.map SingleAssetExit.asset).Nodup)
    (w : World) (channelId : Bytes32) : w.Covers channelId outcome := by
  intro asset
  generalize (w.holdings asset channelId).toNat = n
  induction outcome with
  | nil => exact Nat.zero_le _
  | cons e es ih =>
    rw [List.map_cons, List.nodup_cons] at h
    have hcons : payable n asset (e :: es) =
        (if e.asset = asset then min n (amounts e.allocations) else 0) + payable n asset es :=
      List.sum_cons
    rw [hcons]
    by_cases he : e.asset = asset
    · -- no other entry is in this asset
      have hrest : payable n asset es = 0 := by
        refine List.sum_eq_zero fun x hx => ?_
        obtain ⟨e', he', rfl⟩ := List.mem_map.1 hx
        refine if_neg fun hsame => h.1 ?_
        rw [he, ← hsame]
        exact List.mem_map_of_mem he'
      rw [if_pos he, hrest, Nat.add_zero]
      exact Nat.min_le_left _ _
    · rw [if_neg he, Nat.zero_add]
      exact ih h.2

end liquidation

/-! ## calls and runs -/

/-- the channel and the outcome that a call liquidates -/
def NitroAdjudicator.Call.liquidates (D : Deployment) : Call → Option (Bytes32 × Exit)
  | .transferAllAssets channelId outcome _ => some (channelId, outcome)
  | .concludeAndTransferAllAssets fixedPart signedVariableParts =>
    match getChannelId D fixedPart, lastVariablePart signedVariableParts with
    | .ok channelId, .ok last => some (channelId, last.outcome)
    | _, _ => none
  | _ => none

/-- a call that succeeds in liquidating an outcome finds it covered -/
def Covered (D : Deployment) (w : World) (tx : Tx) : Prop :=
  ∀ w' channelId outcome, tx.2.exec D tx.1 w = .ok w' →
    tx.2.liquidates D = some (channelId, outcome) → w.Covers channelId outcome

section runs
variable {D : Deployment} {env : Env} {w w' : World}

theorem World.Solvent.of_same (hw : w.Solvent) (hacc : ∀ a, w'.accounted a = w.accounted a)
    (hdep : ∀ a, w'.deposited a = w.deposited a) : w'.Solvent := by
  intro a
  rw [hacc a, hdep a]
  exact hw a

theorem concludeInternal_same {fixedPart : FixedPart} {parts : List SignedVariablePart}
    {channelId : Bytes32}
    (h : concludeInternal D env fixedPart parts w = .ok (channelId, w')) :
    w'.holdings = w.holdings ∧ w'.payments = w.payments ∧ ∀ a, w'.deposited a = w.deposited a := by
  obtain ⟨-, -, last, -, rfl⟩ := concludeInternal_ok h
  refine ⟨rfl, rfl, fun a => ?_⟩
  rw [World.deposited_emit, World.deposited_setStatus]
  rfl

theorem concludeInternal_solvent {fixedPart : FixedPart} {parts : List SignedVariablePart}
    {channelId : Bytes32} (h : concludeInternal D env fixedPart parts w = .ok (channelId, w'))
    (hw : w.Solvent) : w'.Solvent := by
  obtain ⟨hholdings, hpayments, hdep⟩ := concludeInternal_same h
  refine hw.of_same (fun a => ?_) hdep
  unfold World.accounted World.paid
  rw [hholdings, hpayments]

theorem concludeAndTransferAllAssets_solvent {fixedPart : FixedPart}
    {parts : List SignedVariablePart}
    (h : NitroAdjudicator.concludeAndTransferAllAssets D env fixedPart parts w = .ok w')
    (hcovers : ∀ channelId last, getChannelId D fixedPart = .ok channelId →
      lastVariablePart parts = .ok last → w.Covers channelId last.outcome)
    (hw : w.Solvent) : w'.Solvent := by
  obtain ⟨⟨channelId, u⟩, hconclude, h⟩ := bind_eq_ok.1 h
  obtain ⟨last, hlast, h⟩ := bind_eq_ok.1 h
  have hcover := hcovers channelId last (concludeInternal_ok hconclude).1 hlast
  have hcover' : u.Covers channelId last.outcome := by
    unfold World.Covers
    rw [(concludeInternal_same hconclude).1]
    exact hcover
  exact transferAllAssets_solvent h hcover' (concludeInternal_solvent hconclude hw)

theorem exec_solvent {c : Call} (h : c.exec D env w = .ok w') (hc : Covered D w (env, c))
    (hw : w.Solvent) : w'.Solvent := by
  have hcovers := hc w'
  have hexec := h
  cases c with
  | deposit asset channelId expectedHeld amount => exact deposit_solvent h hw
  | transfer assetIndex fromChannelId outcomeBytes stateHash indices =>
    obtain ⟨-, h⟩ := require_bind_eq_ok.1 h
    exact transfer_solvent h hw
  | claim args =>
    obtain ⟨-, h⟩ := require_bind_eq_ok.1 h
    exact claim_solvent h hw
  | transferAllAssets channelId outcome stateHash =>
    obtain ⟨-, h⟩ := require_bind_eq_ok.1 h
    exact transferAllAssets_solvent h (hcovers _ _ hexec rfl) hw
  | concludeAndTransferAllAssets fixedPart parts =>
    obtain ⟨-, h⟩ := require_bind_eq_ok.1 h
    refine concludeAndTransferAllAssets_solvent h (fun channelId last hid hlast => ?_) hw
    refine hcovers _ _ hexec ?_
    simp only [Call.liquidates, hid, hlast]
  | challenge fixedPart parts sig =>
    obtain ⟨-, h⟩ := require_bind_eq_ok.1 h
    obtain ⟨channelId, last, stateHash, -, -, -, -, rfl⟩ := challenge_ok h
    refine hw.of_same (fun a => rfl) fun a => ?_
    rw [World.deposited_setStatus, World.deposited_emit]
    rfl
  | checkpoint fixedPart parts =>
    obtain ⟨-, h⟩ := require_bind_eq_ok.1 h
    obtain ⟨channelId, last, -, -, -, -, rfl⟩ := checkpoint_ok h
    refine hw.of_same (fun a => rfl) fun a => ?_
    unfold clearChallenge
    rw [World.deposited_emit, World.deposited_setStatus]
    rfl
  | conclude fixedPart parts =>
    obtain ⟨-, h⟩ := require_bind_eq_ok.1 h
    obtain ⟨channelId, h⟩ := conclude_ok h
    exact concludeInternal_solvent h hw

theorem World.solvent_empty : World.empty.Solvent := by
  intro a
  show total (fun _ : Bytes32 => (0 : Word)) + 0 ≤ _
  rw [total_zero]
  exact Nat.zero_le _

open Runs in
/-- **no overpayment**: in a run that liquidates only covered outcomes, all holdings and payments of
an asset add up to no more than its deposits -/
theorem solvent_of_covered {txs : List Tx}
    (h : Along (NitroAdjudicator.step D) (Covered D) World.empty txs) :
    (run (NitroAdjudicator.step D) World.empty txs).Solvent := by
  refine Along.inv (I := World.Solvent) (fun w tx hw hc => ?_) World.solvent_empty h
  exact attempt_inv hw fun w' hexec => exec_solvent hexec hc hw

end runs

namespace Sample

/-- five of the native token for participant 1 -/
def fiveForOne : SingleAssetExit := ⟨0, [], [⟨1, 5, 0, []⟩]⟩

def finalPart (outcome : Exit) : VariablePart :=
  { outcome := outcome, appData := [], turnNum := 5, isFinal := true }

/-- another channel gets ten, the sample channel gets five and is closed with the outcome -/
def liquidation (outcome : Exit) : List Tx :=
  [(env 10 100, .deposit 0 (BitVec.ofNat 256 (2 ^ 200)) 0 10),
   (env 5 100, .deposit 0 channelId 0 5),
   (env 0 101, .concludeAndTransferAllAssets fixedPart [signed (finalPart outcome)])]

def liquidated (outcome : Exit) : World :=
  Runs.run (NitroAdjudicator.step deployment) World.empty (liquidation outcome)

end Sample

open Runs Contracts.Sample

theorem solvent_of_covered_five :
    (run (NitroAdjudicator.step deployment) World.empty (liquidation [fiveForOne])).Solvent ∧
      (liquidated [fiveForOne]).payments = [⟨0, 1, 5⟩] := by
  refine ⟨solvent_of_covered ⟨?_, ?_, ?_, trivial⟩, by decide +kernel⟩
  · intro w' channelId outcome _ h
    cases h
  · intro w' channelId outcome _ h
    cases h
  · intro w' id outcome _ h
    have hlast : (Call.concludeAndTransferAllAssets fixedPart
        [signed (finalPart [fiveForOne])]).liquidates deployment =
          some (channelId, [fiveForOne]) := by decide +kernel
    have houtcome : outcome = [fiveForOne] :=
      (Prod.mk.inj (Option.some.inj (h.symm.trans hlast))).2
    rw [houtcome]
    exact World.covers_of_nodup (by decide) _ _

/-- the outcome lists the five twice: ten are paid, five of them out of the other channel's
deposit, and the holdings of the closed channel wrap -/
theorem repeated_asset_overpaid :
    (liquidated [fiveForOne, fiveForOne]).payments = [⟨0, 1, 5⟩, ⟨0, 1, 5⟩] ∧
      (liquidated [fiveForOne, fiveForOne]).holdings 0 channelId = -5 ∧
      (liquidated [fiveForOne, fiveForOne]).deposited 0 = 15 ∧
      (liquidated [fiveForOne, fiveForOne]).deposited 0 <
        (liquidated [fiveForOne, fiveForOne]).accounted 0 := by
  have heval : ((liquidated [fiveForOne, fiveForOne]).payments,
      (liquidated [fiveForOne, fiveForOne]).holdings 0 channelId,
      (liquidated [fiveForOne, fiveForOne]).deposited 0) =
        ([⟨0, 1, 5⟩, ⟨0, 1, 5⟩], -5, 15) := by decide +kernel
  obtain ⟨hpayments, heval⟩ := Prod.mk.inj heval
  obtain ⟨hholdings, hdeposited⟩ := Prod.mk.inj heval
  refine ⟨hpayments, hholdings, hdeposited, World.deposited_lt_of_holdings channelId ?_⟩
  rw [hholdings, hdeposited]
  decide +kernel

end Nitro.Contracts
