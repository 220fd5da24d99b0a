import Nitro.Consensus.Invariant
import Nitro.Consensus.Reading
import Nitro.Protocols.Closing
import Nitro.Protocols.FundingTrace

/-!
# From a channel to a ledger and back

A funded channel becomes a ledger: its postfund outcome is read with `FromExit`, and the signatures
are checked on the state that the ledger stands for.  When the ledger is closed, its supported state
becomes a state of a new channel.

* `Placed`                     a signature is under the first index of its signer's address;
* `Trace.channel_step`         what copying and adding states preserve, direct funding preserves;
* `createConsensusChannel_ok`  what a new ledger is made of;
* `supportedSignedState_eq`    the supported state of a ledger, with both signatures;
* `createChannel_of_valid`     the channel that a ledger becomes;
* `handover`                   **the supported state stays the same, both ways**, unless the turn
                               number is the one that stands for "none".
-/

set_option linter.unusedSectionVars false

namespace Nitro
open Go FinMap Runs Relation

/-! ## signatures under the first index of an address -/

namespace SignedState
variable {cr : Crypto} {ss ss' : SignedState}

def Placed (ss : SignedState) : Prop :=
  ∀ j ∈ ss.entries, ∀ k < j, ss.state.participants[k]? ≠ ss.state.participants[j]?

theorem placed_new (s : State) : (newSignedState s).Placed :=
  fun j hj => absurd hj (AList.notMem_empty j)

theorem Placed.addSignature {sig : Signature} (h : ss.Placed)
    (hadd : ss.addSignature cr sig = .ok ss') : ss'.Placed := by
  obtain ⟨hstate, i, a, ha, hrec, -, -⟩ := addSignature_ok hadd
  have hsome : (ss.state.participants.findIdx? fun p => decide (p = a)).isSome = true := by
    rw [List.findIdx?_isSome, List.any_eq_true]
    exact ⟨a, List.mem_of_getElem? ha, decide_eq_true rfl⟩
  obtain ⟨first, hfirst⟩ := Option.isSome_iff_exists.1 hsome
  have hentries := addSignature_first hadd hrec hfirst
  obtain ⟨hlt, hfound, hbefore⟩ := List.findIdx?_eq_some_iff_getElem.1 hfirst
  intro j hj k hk
  rw [hstate]
  rw [hentries, AList.mem_insert] at hj
  rcases hj with rfl | hj
  · intro hsame
    rw [List.getElem?_eq_getElem (hk.trans hlt), List.getElem?_eq_getElem hlt,
      Option.some.injEq] at hsame
    have hnot := hbefore k hk
    rw [hsame] at hnot
    exact hnot hfound
  · exact h j hj k hk

theorem Placed.merge (h : ss.Placed) (ss2 : SignedState) :
    ((SignedState.merge cr ss2).after ss).Placed :=
  merge_inv ss2 (fun _ _ _ _ _ _ hx hadd => hx.addSignature hadd) h

end SignedState

namespace Channel
variable {cr : Crypto} {c d : Channel} {t : UInt64}

/-- the signatures on the record of turn `t` are -/
def Placed (t : UInt64) (c : Channel) : Prop :=
  ∃ ss, c.signedStateForTurnNum.lookup t = some ss ∧ ss.Placed

theorem Placed.clone (h : Placed t c) (hd : c.clone cr = .ok d) : Placed t d := by
  obtain ⟨ss, hl, hss⟩ := h
  obtain ⟨-, -, -, -, -, hlookup, -⟩ := clone_ok hd
  exact ⟨ss.copied, hlookup t ss hl, hss⟩

theorem Placed.store {ss ss' : SignedState} (h : Placed t c) (hr : Recorded cr c ss ss') :
    Placed t (c.store ss.state.turnNum ss') := by
  obtain ⟨x, hl, hx⟩ := h
  by_cases e : t = ss.state.turnNum
  · subst e
    refine ⟨ss', Finmap.lookup_insert _, ?_⟩
    cases hr with
    | fresh hnone =>
      rw [hnone] at hl
      cases hl
    | merged hsome =>
      obtain rfl := Option.some.inj (hsome.symm.trans hl)
      exact hx.merge ss
  · exact ⟨x, (Finmap.lookup_insert_of_ne _ e).trans hl, hx⟩

theorem Placed.addSignedState (h : Placed t c) (ss : SignedState) :
    Placed t ((Channel.addSignedState cr ss).after c) := by
  rcases addSignedState_cases cr ss c with hsame | ⟨ss', -, hr, hrun | ⟨-, -, hrun⟩⟩
  · rwa [hsame]
  · rw [hrun]
    exact h.store hr
  · rw [hrun]
    exact h.store hr

theorem placed_postfund {s : State} {i : Nat} (h : Channel.new cr s i = .ok c) :
    Placed postFundTurnNum c := by
  obtain ⟨-, -, -, -, hstates⟩ := new_ok h
  exact ⟨_, by rw [hstates, Finmap.lookup_insert], SignedState.placed_new _⟩

end Channel

/-! ## invariants of the channel of an objective -/

namespace DirectFund.Objective
open Channel (Setup Ready)

section inv
variable {cr : Crypto} {P Q : Channel → Prop}

theorem signAndAddState_inv (hadd : ∀ c ss, Q c → Q ((Channel.addSignedState cr ss).after c))
    {c : Channel} (h : Q c) (st : State) (sk : Bytes) :
    Q ((Channel.signAndAddState cr st sk).after c) := by
  rcases Channel.signAndAddState_cases cr st sk c with hsame | ⟨_, ss, -, -, hrun⟩
  · rwa [hsame]
  · rw [hrun]
    exact hadd c ss h

theorem acts_inv (hadd : ∀ c ss, Q c → Q ((Channel.addSignedState cr ss).after c)) {sk : Bytes}
    {x y : Objective × SideEffects} (hacts : ReflTransGen (Act cr sk) x y) (h : Q x.1.c) :
    Q y.1.c := by
  induction hacts with
  | refl => exact h
  | tail _ hact ih =>
    cases hact with
    | sign _ hsign =>
      rw [← Meth.after_ok hsign]
      exact signAndAddState_inv hadd ih _ sk
    | fail _ hsign =>
      rw [← Meth.after_error hsign]
      exact signAndAddState_inv hadd ih _ sk
    | deposit => exact ih
    | complete => exact ih

/-- **every event works on a copy**: it leaves the channel alone, or what copies have and added
states and recorded holdings preserve holds of the channel after it -/
theorem Trace.channel_step (hclone : ∀ c d, P c → c.clone cr = .ok d → Q d)
    (hadd : ∀ c ss, Q c → Q ((Channel.addSignedState cr ss).after c))
    (hfunds : ∀ (c : Channel) funds, Q c → Q { c with onChainFunding := funds })
    (t : Trace) (e : Event) (h : P t.objective.c) :
    (t.step cr e).objective.c = t.objective.c ∨ Q (t.step cr e).objective.c := by
  rcases Trace.step_cases cr t e with ⟨hq, -⟩ | ⟨sk, r, -, hr, hstep⟩
  · generalize (t.step cr e).objective = o' at hq ⊢
    cases hq with
    | same => exact .inl rfl
    | @received d c _ _ hd hc _ =>
      have hcopy := hclone _ d h hd
      right
      rcases hc with rfl | ⟨ss, rfl⟩ | ⟨funds, rfl⟩
      · exact hcopy
      · exact hadd d ss hcopy
      · exact hfunds d funds hcopy
  · obtain ⟨d, hd, hacts⟩ := crank_acts hr
    rw [hstep]
    exact .inr (acts_inv hadd hacts (hclone _ d h hd))

end inv

/-- a channel that is being opened: as it was made, or a copy whose signatures are in their places -/
def Opening (cr : Crypto) (s : State) (i : Nat) (c : Channel) : Prop :=
  Channel.new cr s i = .ok c ∨ Ready cr anySig s i c ∧ c.Placed postFundTurnNum

theorem opening_run {cr : Crypto} {s : State} {i : Nat} {t : Trace}
    (h : Opening cr s i t.objective.c) (events : List Event) :
    Opening cr s i (run (Trace.step cr) t events).objective.c := by
  have hclone : ∀ c d : Channel, Opening cr s i c → c.clone cr = .ok d →
      Ready cr anySig s i d ∧ d.Placed postFundTurnNum := by
    intro c d hc hd
    rcases hc with hnew | ⟨hready, hplaced⟩
    · exact ⟨Setup.clone (.inl hnew) hd, (Channel.placed_postfund hnew).clone hd⟩
    · exact ⟨Setup.clone (.inr hready) hd, hplaced.clone hd⟩
  refine run_inv (I := fun t : Trace => Opening cr s i t.objective.c) (fun t e ht => ?_) h
  rcases Trace.channel_step hclone
    (fun c ss hc => ⟨hc.1.addSignedState fun _ _ _ _ _ => trivial, hc.2.addSignedState ss⟩)
    (fun c funds hc => ⟨hc.1.congr rfl rfl rfl rfl, hc.2⟩) t e ht with hsame | hready
  · rwa [hsame]
  · exact .inr hready

/-! ## a new ledger -/

section creating
variable {cr : Crypto} {o : Objective} {cc : ConsensusChannel}

structure Created (cr : Crypto) (o : Objective) (out : LedgerOutcome) (cc : ConsensusChannel) :
    Prop where
  complete : o.c.postFundComplete = true
  leader : o.c.signedPostFundState.entries.lookup leaderIndex = some cc.current.signatures.1
  follower : o.c.signedPostFundState.entries.lookup followerIndex = some cc.current.signatures.2
  outcome : ∃ e, o.c.postFundState.outcome = [e] ∧ fromExit e = .ok out.raw
  made : newConsensusChannel cr o.c.fixedPart cc.myIndex o.c.postFundState.turnNum out
    cc.current.signatures = .ok { cc with onChainFunding := ∅ }
  onChainFunding : cc.onChainFunding = o.c.onChainFunding

theorem getParticipantSignature_eq_ok {ss : SignedState} {i : Nat} {sig : Signature} :
    ss.getParticipantSignature i = .ok sig ↔ ss.entries.lookup i = some sig := by
  unfold SignedState.getParticipantSignature
  cases ss.entries.lookup i <;> simp

theorem newConsensusChannelFrom_ok {fp : FixedPart} {i : Nat} {turn : UInt64} {raw : RawOutcome}
    {sigs : Signature × Signature} (h : newConsensusChannelFrom cr fp i turn raw sigs = .ok cc) :
    ∃ out, raw = out.raw ∧ newConsensusChannel cr fp i turn out sigs = .ok cc := by
  obtain ⟨-, -, h⟩ := Res.bind_eq_ok.1 h
  obtain ⟨-, -, h⟩ := Res.bind_eq_ok.1 h
  obtain ⟨out, hout, h⟩ := Res.bind_eq_ok.1 h
  exact ⟨out, RawOutcome.clone_eq_ok.1 hout, h⟩

theorem newConsensusChannel_funding {fp : FixedPart} {i : Nat} {turn : UInt64}
    {out : LedgerOutcome} {sigs : Signature × Signature}
    (h : newConsensusChannel cr fp i turn out sigs = .ok cc) : cc.onChainFunding = ∅ := by
  obtain ⟨-, -, h⟩ := Res.bind_eq_ok.1 h
  obtain ⟨_, -, h⟩ := Res.bind_eq_ok.1 h
  obtain ⟨_, -, h⟩ := Res.bind_eq_ok.1 h
  obtain ⟨_, -, h⟩ := Res.bind_eq_ok.1 h
  obtain ⟨-, h⟩ := failIf_bind_eq_ok.1 h
  obtain ⟨_, -, h⟩ := Res.bind_eq_ok.1 h
  obtain ⟨_, -, h⟩ := Res.bind_eq_ok.1 h
  obtain ⟨-, h⟩ := failIf_bind_eq_ok.1 h
  cases h
  rfl

theorem createConsensusChannel_ok (h : o.createConsensusChannel cr = .ok cc) :
    ∃ out, Created cr o out cc := by
  obtain ⟨hcomplete, h⟩ := failIf_bind_eq_ok.1 h
  obtain ⟨leaderSig, hleader, h⟩ := Res.bind_eq_ok.1 h
  obtain ⟨followerSig, hfollower, h⟩ := Res.bind_eq_ok.1 h
  obtain ⟨hlen, h⟩ := failIf_bind_eq_ok.1 h
  obtain ⟨e, he, h⟩ := Res.bind_eq_ok.1 h
  obtain ⟨raw, hraw, h⟩ := Res.bind_eq_ok.1 h
  rw [Bool.not_eq_false] at hcomplete
  rw [Res.wrap_eq_ok] at hleader hfollower hraw
  rw [not_ne_iff] at hlen
  rw [index_eq_ok] at he
  have houtcome : o.c.postFundState.outcome = [e] := by
    obtain ⟨x, hx⟩ := List.length_eq_one_iff.1 hlen
    rw [hx, List.getElem?_cons_zero, Option.some.injEq] at he
    exact he ▸ hx
  have hmade : ∀ {i : Nat} {text : String},
      ((newConsensusChannelFrom cr o.c.fixedPart i o.c.postFundState.turnNum raw
        (leaderSig, followerSig)).wrap text >>= fun con =>
          (.ok { con with onChainFunding := o.c.onChainFunding.clone } : Res ConsensusChannel)) =
        .ok cc → ∃ out, Created cr o out cc := by
    intro i text h
    obtain ⟨con, hcon, hend⟩ := Res.bind_eq_ok.1 h
    obtain ⟨out, rfl, hnew⟩ := newConsensusChannelFrom_ok (Res.wrap_eq_ok.1 hcon)
    cases hend
    obtain ⟨rfl, -, -, -, hcurrent, -⟩ := ConsensusChannel.newConsensusChannel_ok hnew
    have hsigs : con.current.signatures = (leaderSig, followerSig) := by rw [hcurrent]
    refine ⟨out, hcomplete, ?_, ?_, ⟨e, houtcome, hraw⟩, ?_, Funds.clone_eq _⟩
    · rw [getParticipantSignature_eq_ok.1 hleader]
      exact congrArg some (congrArg Prod.fst hsigs).symm
    · rw [getParticipantSignature_eq_ok.1 hfollower]
      exact congrArg some (congrArg Prod.snd hsigs).symm
    · show newConsensusChannel cr o.c.fixedPart con.myIndex _ out con.current.signatures = _
      rw [hsigs, hnew, ← newConsensusChannel_funding hnew]
  split at h
  · exact hmade h
  · exact hmade h

theorem createConsensusChannel_eq {e : SingleAssetExit} {raw : RawOutcome}
    {con : ConsensusChannel} {i : Nat} (sigs : Signature × Signature)
    (hcomplete : o.c.postFundComplete = true)
    (hleader : o.c.signedPostFundState.entries.lookup leaderIndex = some sigs.1)
    (hfollower : o.c.signedPostFundState.entries.lookup followerIndex = some sigs.2)
    (houtcome : o.c.postFundState.outcome = [e]) (hread : fromExit e = .ok raw)
    (hi : i = if o.c.myIndex = leaderIndex then leaderIndex else followerIndex)
    (hmade : newConsensusChannelFrom cr o.c.fixedPart i o.c.postFundState.turnNum raw sigs =
      .ok con) :
    o.createConsensusChannel cr = .ok { con with onChainFunding := o.c.onChainFunding.clone } := by
  have houtcome : o.c.signedPostFundState.state.outcome = [e] := houtcome
  refine failIf_bind_eq_ok.2 ⟨by rw [hcomplete]; decide, ?_⟩
  refine Res.bind_eq_ok.2 ⟨_, Res.wrap_eq_ok.2 (getParticipantSignature_eq_ok.2 hleader), ?_⟩
  refine Res.bind_eq_ok.2 ⟨_, Res.wrap_eq_ok.2 (getParticipantSignature_eq_ok.2 hfollower), ?_⟩
  refine failIf_bind_eq_ok.2 ⟨by rw [houtcome]; exact not_not.2 rfl, ?_⟩
  refine Res.bind_eq_ok.2 ⟨e, by rw [houtcome]; rfl, ?_⟩
  refine Res.bind_eq_ok.2 ⟨raw, Res.wrap_eq_ok.2 hread, ?_⟩
  subst hi
  split at hmade
  · next hside =>
    rw [if_pos hside]
    exact Res.bind_eq_ok.2 ⟨con, Res.wrap_eq_ok.2 hmade, rfl⟩
  · next hside =>
    rw [if_neg hside]
    exact Res.bind_eq_ok.2 ⟨con, Res.wrap_eq_ok.2 hmade, rfl⟩

end creating

end DirectFund.Objective

/-! ## the supported state of a ledger -/

section supported
variable {cr : Crypto} {cc : ConsensusChannel} {a b : Address}

/-- both signatures of a ledger, under the indices of the leader and the follower -/
def ConsensusChannel.signed (cc : ConsensusChannel) : SignedState :=
  ⟨cc.current.vars.asState cc.fp, some (((∅ : SigMap).insert leaderIndex
    cc.current.signatures.1).insert followerIndex cc.current.signatures.2)⟩

theorem addSignature_of_signer {s : State} {m : SigMap} {sig : Signature} {i : Nat}
    (hrec : s.recoverSigner cr sig = .ok a)
    (hi : s.participants.findIdx? (fun p => decide (p = a)) = some i) (hfree : i ∉ m) :
    SignedState.addSignature cr ⟨s, some m⟩ sig = .ok ⟨s, some (m.insert i sig)⟩ := by
  unfold SignedState.addSignature
  rw [hrec, Res.wrap_eq_ok.2 rfl, Res.ok_bind]
  simp only [hi]
  exact failIf_bind_eq_ok.2 ⟨hfree, rfl⟩

theorem tryAddSignature_of_signer {s : State} {m : SigMap} {sig : Signature} {i : Nat}
    (hrec : s.recoverSigner cr sig = .ok a)
    (hi : s.participants.findIdx? (fun p => decide (p = a)) = some i) (hfree : i ∉ m) :
    SignedState.tryAddSignature cr ⟨s, some m⟩ sig = .ok ⟨s, some (m.insert i sig)⟩ := by
  unfold SignedState.tryAddSignature
  rw [addSignature_of_signer hrec hi hfree]

theorem findIdx_leader (hl : cc.fp.participants[leaderIndex]? = some a) :
    cc.fp.participants.findIdx? (fun p => decide (p = a)) = some leaderIndex := by
  cases hparts : cc.fp.participants with
  | nil =>
    rw [hparts] at hl
    cases hl
  | cons x l =>
    rw [hparts] at hl
    cases hl
    simp [List.findIdx?_cons, leaderIndex]

theorem findIdx_follower (hl : cc.fp.participants[leaderIndex]? = some a)
    (hf : cc.fp.participants[followerIndex]? = some b) (hne : a ≠ b) :
    cc.fp.participants.findIdx? (fun p => decide (p = b)) = some followerIndex := by
  match hparts : cc.fp.participants with
  | [] =>
    rw [hparts] at hl
    cases hl
  | [x] =>
    rw [hparts] at hf
    cases hf
  | x :: y :: l =>
    rw [hparts] at hl hf
    cases hl
    cases hf
    simp [List.findIdx?_cons, followerIndex, hne]

/-- **the supported state of a ledger** has both signatures if the parties are not the same -/
theorem supportedSignedState_eq (hv : cc.Valid cr a b) (hne : a ≠ b) :
    cc.supportedSignedState cr = .ok cc.signed := by
  refine Res.bind_eq_ok.2 ⟨_, tryAddSignature_of_signer hv.leaderSig (findIdx_leader hv.leaderAddr)
    (AList.notMem_empty _), ?_⟩
  refine tryAddSignature_of_signer hv.followerSig (findIdx_follower hv.leaderAddr hv.followerAddr hne)
    fun hmem => ?_
  rw [AList.mem_insert] at hmem
  rcases hmem with h | h
  · exact absurd h (by decide)
  · exact AList.notMem_empty _ h

/-! ## the channel that a ledger becomes -/

theorem asOutcome_amounts (out : LedgerOutcome) :
    ∀ e ∈ out.asOutcome, ∀ x ∈ e.allocations, ∃ n, x.amount = some n := by
  intro e he x hx
  rw [LedgerOutcome.asOutcome_eq, List.mem_singleton] at he
  subst he
  rcases List.mem_cons.1 hx with rfl | hx
  · exact ⟨_, rfl⟩
  · rcases List.mem_cons.1 hx with rfl | hx
    · exact ⟨_, rfl⟩
    · obtain ⟨g, -, rfl⟩ := List.mem_map.1 hx
      exact ⟨_, rfl⟩

theorem new_of_valid (hv : cc.Valid cr a b) (hfp : cc.fp.validate cr = .ok ()) :
    ∃ c, Channel.new cr (cc.current.vars.asState cc.fp) cc.myIndex = .ok c := by
  have hamounts := asOutcome_amounts cc.current.vars.outcome
  obtain ⟨total, htotal⟩ := Exit.total_of_amounts hamounts
  have hclone : (cc.current.vars.asState cc.fp).clone = .ok (cc.current.vars.asState cc.fp) := by
    refine Res.bind_eq_ok.2 ⟨cc.fp, FixedPart.clone_ok hv.channelId, ?_⟩
    exact Res.bind_eq_ok.2 ⟨_, Exit.clone_of_amounts hamounts, rfl⟩
  exact ⟨_, Res.bind_eq_ok.2 ⟨(), hfp, Res.bind_eq_ok.2 ⟨cc.id, hv.channelId,
    Res.bind_eq_ok.2 ⟨_, hclone, Res.bind_eq_ok.2 ⟨total, htotal, rfl⟩⟩⟩⟩⟩

theorem merge_signed (hv : cc.Valid cr a b) (hne : a ≠ b) :
    SignedState.merge cr cc.signed (newSignedState (cc.current.vars.asState cc.fp)) =
      .ok () ⟨cc.current.vars.asState cc.fp, some (((∅ : SigMap).insert followerIndex
        cc.current.signatures.2).insert leaderIndex cc.current.signatures.1)⟩ := by
  have hentries : cc.signed.entries.entries =
      [⟨followerIndex, cc.current.signatures.2⟩, ⟨leaderIndex, cc.current.signatures.1⟩] := by
    show (((∅ : SigMap).insert leaderIndex _).insert followerIndex _).entries = _
    rw [AList.entries_insert_of_notMem, AList.entries_insert_of_notMem (AList.notMem_empty _)]
    · rfl
    · rw [AList.mem_insert]
      exact fun h => h.elim (by decide) (AList.notMem_empty _)
  have hfree : leaderIndex ∉ (∅ : SigMap).insert followerIndex cc.current.signatures.2 := by
    rw [AList.mem_insert]
    exact fun h => h.elim (by decide) (AList.notMem_empty _)
  have hsecond : (newSignedState (cc.current.vars.asState cc.fp)).addSignature cr
      cc.current.signatures.2 = .ok ⟨_, some ((∅ : SigMap).insert followerIndex _)⟩ :=
    addSignature_of_signer hv.followerSig (findIdx_follower hv.leaderAddr hv.followerAddr hne)
      (AList.notMem_empty _)
  have hfirst := addSignature_of_signer hv.leaderSig (findIdx_leader hv.leaderAddr) hfree
  have hlookup : (newSignedState (cc.current.vars.asState cc.fp)).entries.lookup followerIndex =
      none := AList.lookup_empty _
  have hlookup' : (SignedState.mk (cc.current.vars.asState cc.fp)
      (some ((∅ : SigMap).insert followerIndex cc.current.signatures.2))).entries.lookup
        leaderIndex = none := AList.lookup_eq_none.2 hfree
  have hequal : (newSignedState (cc.current.vars.asState cc.fp)).state.equal cc.signed.state =
      .ok true := State.equal_self _
  unfold SignedState.merge
  simp only [hequal, hentries, SignedState.mergeLoop, hlookup, hsecond, hlookup', hfirst]
  rfl

theorem addSignedState_supports {ss : SignedState} {c c' : Channel}
    (hid : ss.state.channelId cr = .ok c.id) (hlatest : c.latestSupportedStateTurnNum = maxTurnNum)
    (hrecord : Channel.record cr ss c = .ok () c')
    (hall : (c'.signedState ss.state.turnNum).hasAllSignatures = true) :
    Channel.addSignedState cr ss c =
      .ok true { c' with latestSupportedStateTurnNum := ss.state.turnNum } := by
  unfold Channel.addSignedState
  simp only [hid, hlatest, hrecord, Channel.updateSupport, hall]
  simp

/-- the state of the ledger with its two signatures, in whatever order they were added -/
structure Both (cc : ConsensusChannel) (ss : SignedState) : Prop where
  state : ss.state = cc.current.vars.asState cc.fp
  leader : ss.entries.lookup leaderIndex = some cc.current.signatures.1
  follower : ss.entries.lookup followerIndex = some cc.current.signatures.2
  keys : ss.entries.keys.length = 2

theorem both_signed (cc : ConsensusChannel) : Both cc cc.signed where
  state := rfl
  leader := (AList.lookup_insert_ne (by decide)).trans (AList.lookup_insert _)
  follower := AList.lookup_insert _
  keys := by
    show (((∅ : SigMap).insert leaderIndex _).insert followerIndex _).keys.length = 2
    rw [AList.keys_insert, AList.keys_insert]
    rfl

theorem both_merged (cc : ConsensusChannel) :
    Both cc ⟨cc.current.vars.asState cc.fp, some (((∅ : SigMap).insert followerIndex
      cc.current.signatures.2).insert leaderIndex cc.current.signatures.1)⟩ where
  state := rfl
  leader := AList.lookup_insert _
  follower := (AList.lookup_insert_ne (by decide)).trans (AList.lookup_insert _)
  keys := by
    show (((∅ : SigMap).insert followerIndex _).insert leaderIndex _).keys.length = 2
    rw [AList.keys_insert, AList.keys_insert]
    rfl

theorem record_fresh {ss : SignedState} {c : Channel}
    (h : c.signedStateForTurnNum.lookup ss.state.turnNum = none) :
    Channel.record cr ss c = .ok () (c.store ss.state.turnNum ss) := by
  unfold Channel.record
  rw [h]

theorem record_merged {ss existing merged : SignedState} {c : Channel}
    (h : c.signedStateForTurnNum.lookup ss.state.turnNum = some existing)
    (hm : SignedState.merge cr ss existing = .ok () merged) :
    Channel.record cr ss c = .ok () (c.store ss.state.turnNum merged) := by
  unfold Channel.record
  simp only [h, hm]

/-- a record of turn 1 is there before the ledger's, a later one is not -/
theorem record_signed {c c₀ : Channel} (hv : cc.Valid cr a b) (hne : a ≠ b)
    (hturn : 1 ≤ cc.current.vars.turnNum.toNat)
    (hnew : Channel.new cr (cc.current.vars.asState cc.fp) cc.myIndex = .ok c₀)
    (hstates : c.signedStateForTurnNum = c₀.signedStateForTurnNum) :
    ∃ ss, Both cc ss ∧
      Channel.record cr cc.signed c = .ok () (c.store cc.current.vars.turnNum ss) := by
  obtain ⟨-, -, -, -, hnewStates⟩ := Channel.new_ok hnew
  have hturnNum : cc.signed.state.turnNum = cc.current.vars.turnNum := rfl
  by_cases hone : cc.current.vars.turnNum = postFundTurnNum
  · refine ⟨_, both_merged cc, record_merged ?_ (merge_signed hv hne)⟩
    rw [hturnNum, hstates, hnewStates, hone, Finmap.lookup_insert, ← hone]
    rfl
  · have hzero : cc.current.vars.turnNum ≠ preFundTurnNum := by
      intro e
      rw [e] at hturn
      exact absurd hturn (by decide)
    refine ⟨_, both_signed cc, record_fresh ?_⟩
    rw [hturnNum, hstates, hnewStates, Finmap.lookup_insert_of_ne _ hone,
      Finmap.lookup_insert_of_ne _ hzero, Finmap.lookup_empty]

/-- **a ledger becomes a channel** with its id, index and holdings, in which its state is supported
and has both signatures -/
theorem createChannel_of_valid (hv : cc.Valid cr a b) (hfp : cc.fp.validate cr = .ok ())
    (hparts : cc.fp.participants = [a, b]) (hne : a ≠ b)
    (hturn : 1 ≤ cc.current.vars.turnNum.toNat) :
    ∃ c, DirectDefund.createChannelFromConsensusChannel cr cc = .ok c ∧ c.id = cc.id ∧
      c.myIndex = cc.myIndex ∧ c.onChainFunding = cc.onChainFunding ∧
      c.latestSupportedStateTurnNum = cc.current.vars.turnNum ∧
      Both cc (c.signedState cc.current.vars.turnNum) := by
  obtain ⟨c₀, hnew⟩ := new_of_valid hv hfp
  obtain ⟨hid, hindex, -, hlatest, -⟩ := Channel.new_ok hnew
  have hid : cc.id = c₀.id := Except.ok.inj (hv.channelId.symm.trans hid)
  obtain ⟨d, hd⟩ : ∃ d : Channel, d = { c₀ with onChainFunding := cc.onChainFunding.clone } :=
    ⟨_, rfl⟩
  obtain ⟨ss, hboth, hrecord⟩ := record_signed (c := d) hv hne hturn hnew (by rw [hd])
  have hstored : (d.store cc.current.vars.turnNum ss).signedState cc.current.vars.turnNum = ss :=
    Channel.signedState_store _ _ _
  have hall : ss.hasAllSignatures = true := by
    refine decide_eq_true ?_
    rw [hboth.keys, hboth.state]
    show 2 = cc.fp.participants.length
    rw [hparts]
    rfl
  have hchannel : cc.signed.state.channelId cr = .ok d.id := by
    rw [hd, ← hid]
    exact hv.channelId
  have hadd := addSignedState_supports hchannel (by rw [hd]; exact hlatest) hrecord
    (hstored.symm ▸ hall)
  refine ⟨{ d.store cc.current.vars.turnNum ss with
    latestSupportedStateTurnNum := cc.current.vars.turnNum }, ?_, ?_, ?_, ?_, rfl, ?_⟩
  · refine Res.bind_eq_ok.2 ⟨_, supportedSignedState_eq hv hne, Res.bind_eq_ok.2 ⟨c₀, hnew, ?_⟩⟩
    show (Channel.addSignedState cr cc.signed).exec
      { c₀ with onChainFunding := cc.onChainFunding.clone } = _
    rw [← hd]
    unfold Meth.exec
    rw [hadd]
    rfl
  · show d.id = cc.id
    rw [hd, hid]
  · show d.myIndex = cc.myIndex
    rw [hd]
    exact hindex
  · show d.onChainFunding = cc.onChainFunding
    rw [hd]
    exact Funds.clone_eq _
  · show Both cc ((d.store cc.current.vars.turnNum ss).signedState cc.current.vars.turnNum)
    rw [hstored]
    exact hboth

end supported

/-! ## both ways -/

/-- a signature of one signer is on one encoding: no collision and no second preimage of a
signature between the two states -/
def State.Binding (cr : Crypto) (s r : State) : Prop :=
  ∀ sig a, s.recoverSigner cr sig = .ok a → r.recoverSigner cr sig = .ok a →
    s.encode cr = r.encode cr

theorem State.encode_of_recover {cr : Crypto} {s : State} {sig : Signature} {a : Address}
    (h : s.recoverSigner cr sig = .ok a) : ∃ encoded, s.encode cr = .ok encoded := by
  obtain ⟨hash, hhash, -⟩ := Res.bind_eq_ok.1 h
  obtain ⟨encoded, hencoded, -⟩ := State.hash_eq_ok.1 hhash
  exact ⟨encoded, hencoded⟩

namespace DirectFund.Objective
open Channel (Ready)

variable {cr : Crypto} {preApprove : Bool} {s : State} {myAddress : Address} {o : Objective}
  {cc : ConsensusChannel} {events : List Event} {t : Trace}

theorem opening_new (hnew : constructFromState cr preApprove s myAddress = .ok o) :
    ∃ i, s.participants.findIdx? (fun v => decide (v = myAddress)) = some i ∧
      Opening cr s i o.c := by
  obtain ⟨i, hi, hc⟩ := (constructFromState_ok hnew).channel
  exact ⟨i, hi, .inl hc⟩

theorem constructFromState_start (hnew : constructFromState cr preApprove s myAddress = .ok o) :
    s.isFinal = false ∧ s.fixedPart.validate cr = .ok () := by
  obtain ⟨u, hvalid, h⟩ := Res.bind_eq_ok.1 hnew
  obtain ⟨-, h⟩ := failIf_bind_eq_ok.1 h
  obtain ⟨hfinal, -⟩ := failIf_bind_eq_ok.1 h
  exact ⟨Bool.eq_false_iff.2 hfinal, hvalid⟩

/-- a signature on the postfund record is there only after a copy -/
theorem Opening.ready {i j : Nat} {c : Channel} {sig : Signature} (h : Opening cr s i c)
    (hsig : c.signedPostFundState.entries.lookup j = some sig) :
    Ready cr anySig s i c ∧ c.Placed postFundTurnNum := by
  rcases h with hnew | hready
  · obtain ⟨-, -, -, -, hstates⟩ := Channel.new_ok hnew
    have hentries : c.signedPostFundState.entries = ∅ := by
      unfold Channel.signedPostFundState Channel.signedState
      rw [hstates, Finmap.lookup_insert]
      rfl
    rw [hentries, AList.lookup_empty] at hsig
    cases hsig
  · exact hready

/-- slices of the ledger's state are hardly longer than those of the channel's -/
theorem Created.below {out : LedgerOutcome} (h : Created cr o out cc) (fp : FixedPart)
    (turn : UInt64) (hbelow : o.c.postFundState.Below (2 ^ 63)) :
    ((⟨turn, out⟩ : Vars).asState fp).Below (2 ^ 256) := by
  obtain ⟨e, he, hread⟩ := h.outcome
  have hlen := length_sortedGuarantees_le hread
  have hexit := (hbelow.outcome.each e (by rw [he]; exact List.mem_singleton_self e)).allocations
  have hledger := ledgerExit_assetExit (keyed_of_fromExit hread)
  refine ⟨Nat.two_pow_pos 256, ?_, fun f hf => ?_⟩
  · show out.asOutcome.length < 2 ^ 256
    rw [LedgerOutcome.asOutcome_eq]
    exact Nat.one_lt_two_pow (by decide)
  · have hf : f ∈ out.asOutcome := hf
    rw [LedgerOutcome.asOutcome_eq, List.mem_singleton] at hf
    subst hf
    refine ⟨Nat.two_pow_pos 256, ?_, fun a ha => ?_⟩
    · show (out.sortedGuarantees.map Guarantee.asAllocation).length + 1 + 1 < 2 ^ 256
      rw [List.length_map]
      omega
    · rw [← List.take_append_drop 2 out.assetExit.allocations, List.mem_append] at ha
      rcases ha with ha | ha
      · rw [(hledger.plain a ha).2]
        decide
      · rw [(hledger.guarantees a ha).2]
        decide

/-- **the ledger stands for the postfund state** -/
theorem Created.state_eq {i : Nat} {out : LedgerOutcome} (h : Created cr o out cc)
    (hopening : Opening cr s i o.c) (hfinal : s.isFinal = false) (hs : s.Below (2 ^ 63))
    (hbinding : State.Binding cr o.c.postFundState (cc.current.vars.asState cc.fp)) :
    cc.current.vars.asState cc.fp = o.c.postFundState := by
  obtain ⟨hready, -⟩ := hopening.ready h.leader
  have hpost : o.c.postFundState = s.postfund := hready.post.state_eq
  obtain ⟨-, hfp, -, -, hcurrent, leader, follower, hl, -, hsig, -⟩ :=
    ConsensusChannel.newConsensusChannel_ok h.made
  have hfp : cc.fp = s.fixedPart := hfp.trans hready.fixedPart
  have hvars : cc.current.vars = ⟨o.c.postFundState.turnNum, out⟩ := congrArg SignedVars.vars hcurrent
  -- the leader's signature is on both states
  have hchecked : o.c.postFundState.recoverSigner cr cc.current.signatures.1 = .ok leader := by
    obtain ⟨ss, hlookup, hstate, hholds, -⟩ := hready.post
    have hss : o.c.signedState postFundTurnNum = ss := by
      unfold Channel.signedState
      rw [hlookup]
      rfl
    have hleader := h.leader
    unfold Channel.signedPostFundState at hleader
    rw [hss] at hleader
    obtain ⟨x, hx, hrec⟩ := hholds.checked _ _ hleader
    rw [hpost, ← hstate, hrec]
    rw [hstate] at hx
    rw [hready.fixedPart] at hl
    exact congrArg Except.ok (Option.some.inj (hx.symm.trans hl))
  have hsig : (cc.current.vars.asState cc.fp).recoverSigner cr cc.current.signatures.1 =
      .ok leader := by
    rw [hvars, hfp, ← hready.fixedPart]
    exact hsig
  have hsame := hbinding _ _ hchecked hsig
  obtain ⟨encoded, hencoded⟩ := State.encode_of_recover hchecked
  have hbelow : o.c.postFundState.Below (2 ^ 63) := by
    rw [hpost]
    exact ⟨Nat.two_pow_pos 63, hs.outcome⟩
  obtain ⟨-, hshell, -, -⟩ := State.encode_inj (hbelow.mono (by decide))
    (hvars ▸ h.below cc.fp o.c.postFundState.turnNum hbelow) hencoded (hsame ▸ hencoded)
  obtain ⟨e, he, hread⟩ := h.outcome
  have hexit : out.assetExit = e := by
    refine assetExit_of_shell hread ?_
    have hshell : [e].map SingleAssetExit.shell = out.asOutcome.map SingleAssetExit.shell := by
      rw [hvars] at hshell
      rw [← he]
      exact hshell
    rw [LedgerOutcome.asOutcome_eq] at hshell
    exact (List.cons.inj hshell).1.symm
  rw [hvars, hfp, hpost]
  rw [hpost] at he
  unfold Vars.asState
  dsimp only
  rw [LedgerOutcome.asOutcome_eq, hexit, ← he]
  unfold State.postfund State.fixedPart
  rw [← hfinal]

theorem Created.valid {i : Nat} {out : LedgerOutcome} (h : Created cr o out cc)
    (hopening : Opening cr s i o.c) : ∃ a b, cc.Valid cr a b ∧ a ≠ b ∧
      s.participants[leaderIndex]? = some a ∧ s.participants[followerIndex]? = some b := by
  obtain ⟨hready, ss, hlookup, hplaced⟩ := hopening.ready h.follower
  obtain ⟨a, b, hv⟩ := ConsensusChannel.valid_new h.made
  have hv : cc.Valid cr a b := { hv with }
  obtain ⟨-, hfp, -, -, -, -⟩ := ConsensusChannel.newConsensusChannel_ok h.made
  have hfp : cc.fp = s.fixedPart := hfp.trans hready.fixedPart
  have ha : s.participants[leaderIndex]? = some a := by
    rw [← hv.leaderAddr, hfp]
    rfl
  have hb : s.participants[followerIndex]? = some b := by
    rw [← hv.followerAddr, hfp]
    rfl
  refine ⟨a, b, hv, fun hab => ?_, ha, hb⟩
  have hss : o.c.signedPostFundState = ss := by
    unfold Channel.signedPostFundState Channel.signedState
    rw [hlookup]
    rfl
  have hparts : ss.state.participants = s.participants := by
    have hstate : ss.state = s.postfund := by
      rw [← hss]
      exact hready.post.state_eq
    rw [hstate]
    rfl
  have hmem : followerIndex ∈ ss.entries := by
    rw [← hss]
    exact AList.lookup_isSome.1 (by rw [h.follower]; rfl)
  refine hplaced followerIndex hmem leaderIndex (by decide) ?_
  rw [hparts, ha, hb, hab]

end DirectFund.Objective

open DirectFund (constructFromState)
open DirectFund.Objective (Trace)
open DirectDefund (createChannelFromConsensusChannel)

/-- **the supported state is handed over.**  A ledger that is made from a funded channel has the
channel's signed postfund state for its supported state, and its holdings; a channel that is made
from a ledger has the ledger's id, index and holdings, and its supported state with both signatures
is the channel's latest supported state, unless its turn number is the one that stands for "none" -/
theorem handover {cr : Crypto} (hsc : SignCorrect cr) :
    (∀ preApprove s myAddress o (events : List DirectFund.Objective.Event) t cc,
      constructFromState cr preApprove s myAddress = .ok o →
      run (Trace.step cr) ⟨o, []⟩ events = t → s.Below (2 ^ 63) →
      t.objective.c.postFundComplete = true →
      t.objective.createConsensusChannel cr = .ok cc →
      State.Binding cr t.objective.c.postFundState (cc.current.vars.asState cc.fp) →
      ∃ ss, cc.supportedSignedState cr = .ok ss ∧
        ss.state = t.objective.c.signedPostFundState.state ∧
        cc.onChainFunding = t.objective.c.onChainFunding ∧
        ∀ j < 2, ∀ a, s.participants[j]? = some a → ∃ sig, ss.entries.lookup j = some sig ∧
          t.objective.c.signedPostFundState.entries.lookup j = some sig ∧
          ss.state.recoverSigner cr sig = .ok a) ∧
    (∀ fp i turn out sigs c funds (events : List ConsensusChannel.Event) cc a b,
      newConsensusChannel cr fp i turn out sigs = .ok c →
      run (ConsensusChannel.Event.step cr) { c with onChainFunding := funds } events = cc →
      fp.participants = [a, b] → a ≠ b → 1 ≤ cc.current.vars.turnNum.toNat →
      cc.current.vars.turnNum ≠ maxTurnNum →
      ∃ d ss, createChannelFromConsensusChannel cr cc = .ok d ∧
        cc.supportedSignedState cr = .ok ss ∧ d.id = cc.id ∧ d.myIndex = cc.myIndex ∧
        d.onChainFunding = cc.onChainFunding ∧ d.latestSupportedState = .ok ss.state ∧
        ∀ j p, fp.participants[j]? = some p → ∃ sig,
          (d.signedState ss.state.turnNum).entries.lookup j = some sig ∧
          ss.state.recoverSigner cr sig = .ok p) := by
  constructor
  · intro preApprove s myAddress o events t cc hnew ht hs _ hcc hbinding
    obtain ⟨i, -, hstart⟩ := DirectFund.Objective.opening_new hnew
    obtain ⟨hfinal, -⟩ := DirectFund.Objective.constructFromState_start hnew
    have hopening : DirectFund.Objective.Opening cr s i t.objective.c := by
      rw [← ht]
      exact DirectFund.Objective.opening_run (t := ⟨o, []⟩) hstart events
    obtain ⟨out, hcreated⟩ := DirectFund.Objective.createConsensusChannel_ok hcc
    obtain ⟨a, b, hv, hne, ha, hb⟩ := hcreated.valid hopening
    have hboth := both_signed cc
    refine ⟨_, supportedSignedState_eq hv hne,
      hcreated.state_eq hopening hfinal hs hbinding, hcreated.onChainFunding, ?_⟩
    intro j hj p hp
    match j with
    | 0 =>
      obtain rfl := Option.some.inj (ha.symm.trans hp)
      exact ⟨_, hboth.leader, hcreated.leader, hv.leaderSig⟩
    | 1 =>
      obtain rfl := Option.some.inj (hb.symm.trans hp)
      exact ⟨_, hboth.follower, hcreated.follower, hv.followerSig⟩
  · intro fp i turn out sigs c funds events cc a b hnew hrun hparts hne hturn hmax
    obtain ⟨leader, follower, hv₀⟩ := ConsensusChannel.valid_new hnew
    obtain ⟨-, hfp, -⟩ := ConsensusChannel.newConsensusChannel_ok hnew
    obtain ⟨_, hvalid, -⟩ := Res.bind_eq_ok.1 hnew
    have hinv : ConsensusChannel.Valid cr leader follower cc ∧ cc.fp = fp := by
      rw [← hrun]
      exact run_inv (I := fun x => ConsensusChannel.Valid cr leader follower x ∧ x.fp = fp)
        (fun x e hx => ⟨ConsensusChannel.Event.valid_step hsc x e hx.1,
          (ConsensusChannel.Event.fp_step cr x e).trans hx.2⟩)
        ⟨{ hv₀ with }, hfp⟩
    obtain ⟨hv, hfp⟩ := hinv
    have hpartsCc : cc.fp.participants = [a, b] := by rw [hfp, hparts]
    have hleader := hv.leaderAddr
    have hfollower := hv.followerAddr
    rw [hpartsCc] at hleader hfollower
    obtain rfl := Option.some.inj hleader
    obtain rfl := Option.some.inj hfollower
    obtain ⟨d, hd, hid, hindex, hfunding, hlatest, hboth⟩ :=
      createChannel_of_valid hv (hfp ▸ hvalid) hpartsCc hne hturn
    refine ⟨d, _, hd, supportedSignedState_eq hv hne, hid, hindex, hfunding, ?_, ?_⟩
    · unfold Channel.latestSupportedState
      rw [hlatest, if_neg hmax, hboth.state]
      rfl
    · intro j p hp
      rw [hparts] at hp
      match j with
      | 0 =>
        cases hp
        exact ⟨_, hboth.leader, hv.leaderSig⟩
      | 1 =>
        cases hp
        exact ⟨_, hboth.follower, hv.followerSig⟩
      | j + 2 => cases hp

/-! ## a funded channel, and a ledger at the last turn -/

namespace Sample

/-- the postfund state with both signatures -/
def postfundEvent (l : Allocations) : ObjectiveEvent where
  objectiveId := (fundingObjective l).id
  signedState := ⟨(fundingState l).postfund, some (((∅ : SigMap).insert 0
    (sigOn (fundingState l).postfund 1)).insert 1 (sigOn (fundingState l).postfund 2))⟩
  signedProposal := SignedProposal.zero

def openedRun : Trace := fundingRun [.call (.update (postfundEvent fiveEach))]

/-- the ledger that the channel becomes -/
def openedLedger : ConsensusChannel :=
  (openedRun.objective.createConsensusChannel Crypto.plain).toOption.getD (ledger leaderIndex)

theorem openedLedger_created : openedRun.objective.c.postFundComplete = true ∧
    openedRun.objective.createConsensusChannel Crypto.plain = .ok openedLedger ∧
    openedRun.objective.c.postFundState =
      openedLedger.current.vars.asState openedLedger.fp := by decide +kernel

def ledgerAt (turn : UInt64) : ConsensusChannel :=
  { ledger leaderIndex with current := ⟨⟨turn, outcome⟩, (sig ⟨turn, outcome⟩ 1,
    sig ⟨turn, outcome⟩ 2)⟩ }

theorem new_ledgerAt_one : newConsensusChannel Crypto.plain fp leaderIndex 1 outcome
    (sig ⟨1, outcome⟩ 1, sig ⟨1, outcome⟩ 2) = .ok (ledgerAt 1) := by decide +kernel

end Sample

open Sample in
theorem handover_five :
    (∃ ss, openedLedger.supportedSignedState Crypto.plain = .ok ss ∧
      ss.state = openedRun.objective.c.signedPostFundState.state) ∧
    ∃ d ss, createChannelFromConsensusChannel Crypto.plain (ledgerAt 1) = .ok d ∧
      (ledgerAt 1).supportedSignedState Crypto.plain = .ok ss ∧
      d.latestSupportedState = .ok ss.state := by
  obtain ⟨hopen, hclose⟩ := handover signCorrect_plain
  obtain ⟨hcomplete, hcreate, hsame⟩ := openedLedger_created
  have hnew : constructFromState Crypto.plain true (fundingState fiveEach) 1 =
      .ok (fundingObjective fiveEach) := by decide +kernel
  have hbelow : (fundingState fiveEach).Below (2 ^ 63) := by
    refine ⟨by decide, by decide, fun e he => ?_⟩
    rw [List.mem_singleton.1 he]
    refine ⟨by decide, by decide, fun a ha => ?_⟩
    rcases List.mem_pair.1 ha with rfl | rfl
    · decide
    · decide
  constructor
  · obtain ⟨ss, hss, hstate, -⟩ := hopen true (fundingState fiveEach) 1 (fundingObjective fiveEach)
      [.call (.update (postfundEvent fiveEach))] openedRun openedLedger hnew rfl
      hbelow hcomplete hcreate (fun _ _ _ _ => congrArg (State.encode Crypto.plain) hsame)
    exact ⟨ss, hss, hstate⟩
  · obtain ⟨d, ss, hd, hss, -, -, -, hlatest, -⟩ := hclose fp leaderIndex 1 outcome _ (ledgerAt 1) ∅ []
      (ledgerAt 1) 1 2 new_ledgerAt_one rfl (by decide) (by decide) (by decide) (by decide)
    exact ⟨d, ss, hd, hss, hlatest⟩

/-- **nothing is supported**: the ledger's turn number is the last one -/
theorem handover_of_last :
    newConsensusChannel Crypto.plain Sample.fp leaderIndex maxTurnNum Sample.outcome
      (Sample.ledgerAt maxTurnNum).current.signatures = .ok (Sample.ledgerAt maxTurnNum) ∧
    ∃ d, createChannelFromConsensusChannel Crypto.plain (Sample.ledgerAt maxTurnNum) = .ok d ∧
      d.latestSupportedState = .error (.err (.new "no state is yet supported")) := by
  have hnew : newConsensusChannel Crypto.plain Sample.fp leaderIndex maxTurnNum Sample.outcome
      (Sample.ledgerAt maxTurnNum).current.signatures = .ok (Sample.ledgerAt maxTurnNum) := by
    decide +kernel
  obtain ⟨a, b, hv⟩ := ConsensusChannel.valid_new hnew
  obtain ⟨_, hvalid, -⟩ := Res.bind_eq_ok.1 hnew
  obtain rfl : 1 = a := Option.some.inj hv.leaderAddr
  obtain rfl : 2 = b := Option.some.inj hv.followerAddr
  obtain ⟨d, hd, -, -, -, hlatest, -⟩ :=
    createChannel_of_valid hv hvalid rfl (by decide) (by decide)
  refine ⟨hnew, d, hd, ?_⟩
  unfold Channel.latestSupportedState
  rw [hlatest]
  exact if_pos rfl

end Nitro
