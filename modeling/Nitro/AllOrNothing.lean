import Nitro.Channel
import Nitro.MergeOrder

/-!
# A signed state is added as a whole, or not at all

`AddSignedState` merges the signatures of a state into the record of its turn, if there is one.

* `Merges`                 the calls that get to the loop over the signatures;
* `addSignedState_kinds`   the others change nothing, or store the state as it is;
* `allOrNothing_iff`       **`false` means unchanged, and the order of the signatures does not count,
                           exactly if the signatures fit or are blocked**.
-/

set_option linter.unusedSectionVars false

namespace Nitro
open Go FinMap

namespace Channel
variable (cr : Crypto)

/-- the same channel, with other orders of iteration in its records maybe -/
structure Alike (c d : Channel) : Prop where
  id : c.id = d.id
  myIndex : c.myIndex = d.myIndex
  onChainFunding : c.onChainFunding = d.onChainFunding
  fixedPart : c.fixedPart = d.fixedPart
  latest : c.latestSupportedStateTurnNum = d.latestSupportedStateTurnNum
  records : ∀ t, Option.Rel SignedState.Alike (c.signedStateForTurnNum.lookup t)
    (d.signedStateForTurnNum.lookup t)

/-- for every order of iteration: `false` means that nothing has changed, and neither what is returned
nor the channel depends on the order -/
def AllOrNothing (c : Channel) (ss : SignedState) : Prop :=
  ∀ a b : SignedState, a.Alike ss → b.Alike ss →
    ((addSignedState cr a).result c = .ok false → (addSignedState cr a).after c = c) ∧
    ((addSignedState cr a).result c).toOption = ((addSignedState cr b).result c).toOption ∧
    ((addSignedState cr a).after c).Alike ((addSignedState cr b).after c)

structure Merges (c : Channel) (ss existing : SignedState) : Prop where
  channelId : ss.state.channelId cr = .ok c.id
  fresh : ¬ (c.latestSupportedStateTurnNum ≠ maxTurnNum ∧
    ss.state.turnNum < c.latestSupportedStateTurnNum)
  lookup : c.signedStateForTurnNum.lookup ss.state.turnNum = some existing
  equal : existing.state.equal ss.state = .ok true

variable {cr} {c d : Channel} {ss ss' existing a : SignedState} {t : UInt64}

theorem Alike.refl (c : Channel) : c.Alike c := by
  refine ⟨rfl, rfl, rfl, rfl, rfl, fun t => ?_⟩
  cases c.signedStateForTurnNum.lookup t with
  | none => exact .none
  | some ss => exact .some (SignedState.Alike.refl ss)

theorem store_self (h : c.signedStateForTurnNum.lookup t = some ss) : c.store t ss = c := by
  have hsame : c.signedStateForTurnNum.insert t ss = c.signedStateForTurnNum := by
    refine Finmap.ext_lookup fun t' => ?_
    by_cases e : t' = t
    · rw [e, Finmap.lookup_insert, h]
    · rw [Finmap.lookup_insert_of_ne _ e]
  unfold store
  rw [hsame]

/-- the channel after the loop: the record is there, and supported maybe if nothing failed -/
def settled (c : Channel) (t : UInt64) (r : Option Bool × SignedState) : Channel :=
  if r.1 = some true then (c.store t r.2).updateSupport t else c.store t r.2

theorem lookup_settled (r : Option Bool × SignedState) :
    (c.settled t r).signedStateForTurnNum.lookup t = some r.2 := by
  unfold settled updateSupport
  split
  · split
    · exact Finmap.lookup_insert _
    · exact Finmap.lookup_insert _
  · exact Finmap.lookup_insert _

theorem alike_store (h : ss.Alike ss') : (c.store t ss).Alike (c.store t ss') := by
  refine ⟨rfl, rfl, rfl, rfl, rfl, fun t' => ?_⟩
  show Option.Rel _ ((c.signedStateForTurnNum.insert t ss).lookup t')
    ((c.signedStateForTurnNum.insert t ss').lookup t')
  by_cases e : t' = t
  · rw [e, Finmap.lookup_insert, Finmap.lookup_insert]
    exact .some h
  · rw [Finmap.lookup_insert_of_ne _ e, Finmap.lookup_insert_of_ne _ e]
    exact (Alike.refl c).records t'

theorem alike_updateSupport (h : ss.Alike ss') :
    ((c.store t ss).updateSupport t).Alike ((c.store t ss').updateSupport t) := by
  have hs : (c.store t ss).Alike (c.store t ss') := alike_store h
  unfold updateSupport
  rw [signedState_store, signedState_store, h.hasAllSignatures]
  split
  · exact ⟨hs.id, hs.myIndex, hs.onChainFunding, hs.fixedPart, rfl, hs.records⟩
  · exact hs

theorem alike_settled {r r' : Option Bool × SignedState} (hr : r.1 = r'.1) (h : r.2.Alike r'.2) :
    (c.settled t r).Alike (c.settled t r') := by
  unfold settled
  rw [hr]
  split
  · exact alike_updateSupport h
  · exact alike_store h

theorem Merges.addSignedState (h : Merges cr c ss existing) (ha : a.state = ss.state) :
    ((addSignedState cr a).result c).toOption =
        (SignedState.mergeEnd cr a.entries.entries existing).1 ∧
      (addSignedState cr a).after c = c.settled ss.state.turnNum
        (SignedState.mergeEnd cr a.entries.entries existing) := by
  obtain ⟨hid, hfresh, hl, heq⟩ := h
  rw [← ha] at hid hfresh hl heq ⊢
  have hmerge : SignedState.merge cr a existing =
      SignedState.mergeLoop cr a.entries.entries existing := by
    unfold SignedState.merge
    rw [heq]
  unfold Meth.result Meth.after SignedState.mergeEnd settled
  rw [Channel.addSignedState, hid]
  simp only [ne_eq, not_true_eq_false, if_false, if_neg hfresh, record, hl, hmerge]
  cases SignedState.mergeLoop cr a.entries.entries existing with
  | ok u x => exact ⟨rfl, rfl⟩
  | error e x =>
    cases e with
    | err e => exact ⟨rfl, rfl⟩
    | panic r => exact ⟨rfl, rfl⟩

/-- where the call does not get to the loop, it changes nothing or stores the state as it is -/
theorem addSignedState_kinds (cr : Crypto) (c : Channel) (ss : SignedState) :
    (∃ r, ∀ a : SignedState, a.state = ss.state →
      (addSignedState cr a).result c = r ∧ (addSignedState cr a).after c = c) ∨
    (∀ a : SignedState, a.state = ss.state → (addSignedState cr a).result c = .ok true ∧
      (addSignedState cr a).after c = (c.store ss.state.turnNum a).updateSupport ss.state.turnNum) ∨
    ∃ existing, Merges cr c ss existing := by
  cases hid : ss.state.channelId cr with
  | error e =>
    refine .inl ⟨.error e, fun a ha => ?_⟩
    rw [← ha] at hid
    simp [Meth.result, Meth.after, addSignedState, hid]
  | ok cId =>
    by_cases hne : cId = c.id
    · subst hne
      by_cases hstale : c.latestSupportedStateTurnNum ≠ maxTurnNum ∧
          ss.state.turnNum < c.latestSupportedStateTurnNum
      · refine .inl ⟨.ok false, fun a ha => ?_⟩
        rw [← ha] at hid hstale
        simp [Meth.result, Meth.after, addSignedState, hid, hstale]
      · cases hl : c.signedStateForTurnNum.lookup ss.state.turnNum with
        | none =>
          refine .inr (.inl fun a ha => ?_)
          rw [← ha] at hid hstale hl ⊢
          simp [Meth.result, Meth.after, addSignedState, hid, hstale, record, hl]
        | some existing =>
          cases heq : existing.state.equal ss.state with
          | error e =>
            refine .inl ?_
            cases e with
            | err e =>
              refine ⟨.ok false, fun a ha => ?_⟩
              rw [← ha] at hid hstale hl heq
              simp [Meth.result, Meth.after, addSignedState, hid, hstale, record, hl,
                SignedState.merge, heq, store_self hl]
            | panic r =>
              refine ⟨.error (.panic r), fun a ha => ?_⟩
              rw [← ha] at hid hstale hl heq
              simp [Meth.result, Meth.after, addSignedState, hid, hstale, record, hl,
                SignedState.merge, heq, store_self hl]
          | ok same =>
            cases same with
            | true => exact .inr (.inr ⟨existing, hid, hstale, hl, heq⟩)
            | false =>
              refine .inl ⟨.ok false, fun a ha => ?_⟩
              rw [← ha] at hid hstale hl heq
              simp [Meth.result, Meth.after, addSignedState, hid, hstale, record, hl,
                SignedState.merge, heq, store_self hl]
    · refine .inl ⟨.ok false, fun a ha => ?_⟩
      rw [← ha] at hid
      simp [Meth.result, Meth.after, addSignedState, hid, hne]

theorem allOrNothing_of_orderFree (h : Merges cr c ss existing)
    (hfree : SignedState.OrderFree cr existing ss) : AllOrNothing cr c ss := by
  intro a b ha hb
  obtain ⟨hra, haa⟩ := h.addSignedState ha.state
  obtain ⟨hrb, hab⟩ := h.addSignedState hb.state
  obtain ⟨hfalse, hend, halike⟩ := hfree a b ha hb
  refine ⟨fun hf => ?_, ?_, ?_⟩
  · have hsome : (SignedState.mergeEnd cr a.entries.entries existing).1 = some false := by
      rw [← hra, hf]
      rfl
    have hsame := hfalse hsome
    rw [haa, settled, hsome, hsame, if_neg (by decide)]
    exact store_self h.lookup
  · rw [hra, hrb]
    exact hend
  · rw [haa, hab]
    exact alike_settled hend halike

theorem AllOrNothing.orderFree (hall : AllOrNothing cr c ss) (h : Merges cr c ss existing) :
    SignedState.OrderFree cr existing ss := by
  intro a b ha hb
  obtain ⟨hra, haa⟩ := h.addSignedState ha.state
  obtain ⟨hrb, hab⟩ := h.addSignedState hb.state
  obtain ⟨hfalse, hend, halike⟩ := hall a b ha hb
  rw [hra, hrb] at hend
  refine ⟨fun hf => ?_, hend, ?_⟩
  · have hres : (addSignedState cr a).result c = .ok false := by
      rw [hf] at hra
      cases hr : (addSignedState cr a).result c with
      | error e =>
        rw [hr] at hra
        cases hra
      | ok b =>
        rw [hr] at hra
        cases hra
        rfl
    have hl := lookup_settled (c := c) (t := ss.state.turnNum)
      (SignedState.mergeEnd cr a.entries.entries existing)
    rw [← haa, hfalse hres, h.lookup, Option.some.injEq] at hl
    exact hl.symm
  · have hrel := halike.records ss.state.turnNum
    rw [haa, hab, lookup_settled, lookup_settled] at hrel
    cases hrel with
    | some hrel => exact hrel

/-- **when `AddSignedState` is all or nothing** -/
theorem allOrNothing_iff (cr : Crypto) (c : Channel) (ss : SignedState) :
    AllOrNothing cr c ss ↔ ∀ existing, Merges cr c ss existing →
      SignedState.Fit cr existing ss.entries.entries ∨
        SignedState.Blocked cr existing ss.entries.entries := by
  refine ⟨fun hall existing h => SignedState.orderFree_iff.1 (hall.orderFree h), fun h => ?_⟩
  rcases addSignedState_kinds cr c ss with ⟨r, hsame⟩ | hfresh | ⟨existing, hm⟩
  · intro a b ha hb
    obtain ⟨hra, haa⟩ := hsame a ha.state
    obtain ⟨hrb, hab⟩ := hsame b hb.state
    rw [hra, hrb, haa, hab]
    exact ⟨fun _ => rfl, rfl, Alike.refl c⟩
  · intro a b ha hb
    obtain ⟨hra, haa⟩ := hfresh a ha.state
    obtain ⟨hrb, hab⟩ := hfresh b hb.state
    rw [hra, hrb, haa, hab]
    refine ⟨fun e => ?_, rfl, alike_updateSupport (ha.trans hb.symm)⟩
    cases e
  · exact allOrNothing_of_orderFree hm (SignedState.orderFree_iff.2 (h existing hm))

end Channel

namespace Sample

/-- the first participant's signature on the prefund state, and one of nobody -/
def halfSigned : SignedState :=
  ⟨state 0, some (((∅ : SigMap).insert 1 default).insert 0 (sigOn (state 0) 1))⟩

end Sample

namespace Channel

/-- one order of iteration stores a signature before it fails, the other one fails at once -/
theorem half_signed_added :
    new Crypto.plain (Sample.state 0) 0 = .ok Sample.channel ∧
      (addSignedState Crypto.plain Sample.halfSigned).result Sample.channel = .ok false ∧
      (addSignedState Crypto.plain Sample.halfSigned).after Sample.channel ≠ Sample.channel ∧
      (addSignedState Crypto.plain (Sample.halfSigned.first ⟨1, default⟩)).result Sample.channel =
        .ok false ∧
      (addSignedState Crypto.plain (Sample.halfSigned.first ⟨1, default⟩)).after Sample.channel =
        Sample.channel := by
  have hm : Merges Crypto.plain Sample.channel Sample.halfSigned
      (newSignedState (Sample.state 0)) :=
    ⟨by decide +kernel, by decide +kernel, by decide +kernel, by decide +kernel⟩
  have hend : SignedState.mergeEnd Crypto.plain
      (Sample.halfSigned.first ⟨1, default⟩).entries.entries (newSignedState (Sample.state 0)) =
        (some false, newSignedState (Sample.state 0)) := by decide +kernel
  have hfirst : (Sample.halfSigned.first ⟨1, default⟩).state = Sample.halfSigned.state := rfl
  obtain ⟨-, hafter⟩ := hm.addSignedState hfirst
  refine ⟨Sample.new_channel, by decide +kernel, by decide +kernel, by decide +kernel, ?_⟩
  rw [hafter, hend, settled, if_neg (by decide)]
  exact store_self hm.lookup

end Channel

end Nitro
