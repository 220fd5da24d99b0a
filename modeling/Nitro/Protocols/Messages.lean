import Mathlib.Data.List.Sort
import Nitro.Protocols.Interfaces

/-!
# Reading a message

The receiving half of `messages.go`.  A payload holds a signed state or a signed proposal, told
apart by whether its proposal is the zero value, and the engine takes each kind out of a message in
the order of `sortPayloads`: by channel id, then by turn number.

* `MessagePayload.type`             which of the two a payload holds;
* `sortPayloads`                    the order, for any kind of payload;
* `Message.signedProposals`         the proposals of a message, in order;
* `sortPayloads_eq`                 **payloads with increasing keys come out as they are**, however
                                    they were shuffled.
-/

set_option linter.unusedSectionVars false

namespace Nitro
open Go

inductive PayloadType where
  | signedStatePayload
  | signedProposalPayload
  deriving DecidableEq

namespace MessagePayload

/-- the proposal is compared with the zero value as a struct, so a `nil` amount counts only as `nil` -/
def hasProposal (p : MessagePayload) : Bool :=
  decide (p.signedProposal.proposal ≠ SignedProposal.zero.proposal)

def type (p : MessagePayload) : PayloadType :=
  if p.hasProposal then .signedProposalPayload else .signedStatePayload

end MessagePayload

structure ObjectivePayload (τ : Type) where
  payload : τ
  objectiveId : ObjectiveId
  deriving DecidableEq

/-! ## the order of the payloads -/

/-- the comparison of `sortPayloads`, on channel ids and turn numbers; the ids are compared as byte
strings of one length, that is as numbers -/
def sortsBefore (a b : Destination × UInt64) : Bool :=
  if a.1 = b.1 then decide (a.2 < b.2) else decide (a.1 < b.1)

section sort
variable {τ : Type} (sortInfo : τ → Destination × UInt64)

/-- `a` may stand before `b` -/
def InOrder (a b : ObjectivePayload τ) : Prop :=
  sortsBefore (sortInfo b.payload) (sortInfo a.payload) = false

instance (a b : ObjectivePayload τ) : Decidable (InOrder sortInfo a b) :=
  inferInstanceAs (Decidable (_ = false))

/-- `sort.Slice` puts payloads with equal keys in some order; here one of them is picked -/
def sortPayloads (payloads : List (ObjectivePayload τ)) : List (ObjectivePayload τ) :=
  payloads.insertionSort (InOrder sortInfo)

end sort

def SignedProposal.sortInfo (sp : SignedProposal) : Destination × UInt64 :=
  (sp.proposal.ledgerID, sp.turnNum)

/-- `SignedProposals` -/
def Message.signedProposals (m : Message) : List (ObjectivePayload SignedProposal) :=
  sortPayloads SignedProposal.sortInfo
    ((m.payloads.filter fun p => decide (p.type = .signedProposalPayload)).map fun p =>
      ⟨p.signedProposal, p.objectiveId⟩)

/-! ## what the order gives -/

theorem sortsBefore_eq_false {a b : Destination × UInt64} :
    sortsBefore a b = false ↔
      b.1.toNat < a.1.toNat ∨ b.1.toNat = a.1.toNat ∧ b.2.toNat ≤ a.2.toNat := by
  unfold sortsBefore
  by_cases h : a.1 = b.1
  · rw [if_pos h, decide_eq_false_iff_not, UInt64.lt_iff_toNat_lt, h]
    omega
  · have hne : a.1.toNat ≠ b.1.toNat := fun e => h (BitVec.eq_of_toNat_eq e)
    rw [if_neg h, decide_eq_false_iff_not, BitVec.lt_def]
    omega

section sort
variable {τ : Type} {sortInfo : τ → Destination × UInt64}

instance : Std.Total (InOrder sortInfo) where
  total a b := by
    unfold InOrder
    rw [sortsBefore_eq_false, sortsBefore_eq_false]
    omega

instance : IsTrans (ObjectivePayload τ) (InOrder sortInfo) where
  trans a b c := by
    unfold InOrder
    rw [sortsBefore_eq_false, sortsBefore_eq_false, sortsBefore_eq_false]
    omega

/-- the values of one channel in the order of their turn numbers are found in that order, whatever
the order of the payloads was -/
theorem sortPayloads_eq {l : List (ObjectivePayload τ)} {values : List τ}
    (hperm : (l.map ObjectivePayload.payload).Perm values)
    (hvalues : values.Pairwise fun a b =>
      (sortInfo a).1 = (sortInfo b).1 ∧ (sortInfo a).2 < (sortInfo b).2) :
    (sortPayloads sortInfo l).map ObjectivePayload.payload = values := by
  have hsorted : ((sortPayloads sortInfo l).map ObjectivePayload.payload).Pairwise
      fun a b => sortsBefore (sortInfo b) (sortInfo a) = false :=
    List.pairwise_map.2 (List.pairwise_insertionSort (InOrder sortInfo) l)
  have hvalues' : values.Pairwise fun a b => sortsBefore (sortInfo b) (sortInfo a) = false := by
    refine hvalues.imp fun {a b} h => sortsBefore_eq_false.2 (.inr ⟨by rw [h.1], ?_⟩)
    exact Nat.le_of_lt (UInt64.lt_iff_toNat_lt.1 h.2)
  have hp : ((sortPayloads sortInfo l).map ObjectivePayload.payload).Perm values :=
    ((List.perm_insertionSort (InOrder sortInfo) l).map _).trans hperm
  refine List.Perm.eq_of_pairwise (fun a b ha hb hab hba => ?_) hsorted hvalues' hp
  -- equal keys are keys of one value, since the keys of `values` increase
  rw [sortsBefore_eq_false] at hab hba
  by_contra hne
  have : Std.Symm fun a b => sortInfo a ≠ sortInfo b := ⟨fun _ _ h => h.symm⟩
  have hkeys : values.Pairwise fun a b => sortInfo a ≠ sortInfo b := hvalues.imp fun {a b} h e =>
    absurd (e ▸ h.2) (UInt64.lt_irrefl _)
  refine hkeys.forall (hp.mem_iff.1 ha) hb hne (Prod.ext (BitVec.eq_of_toNat_eq ?_)
    (UInt64.toNat_inj.1 ?_))
  · omega
  · omega

end sort

end Nitro
