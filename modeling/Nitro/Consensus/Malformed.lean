import Nitro.Lib.Panics
import Nitro.Consensus.Invariant

/-!
# Malformed proposals

The amounts of a proposal arrive as `*big.Int`s, and `null` is an amount that JSON can spell.  `Add`
and `Remove` compare the amounts before anything else looks at them: the signature of a proposal is
only checked on the `Vars` it leads to.

* `Proposal.Readable`       the amounts that a proposal's own kind compares are there;
* `Vars.panics_handled`     a proposal panics exactly when it is not, unless its target stops it;
* `not_panics_leaderUpdate` a countersignature never panics: the leader applies its own queue;
* `receive_returns_iff`     **`Receive` returns exactly when the proposal for the next turn is
  readable**.
-/

set_option linter.unusedSectionVars false

namespace Nitro
open Go FinMap Runs

/-- the curve library answers with an error where it cannot answer -/
structure Crypto.Safe (cr : Crypto) : Prop where
  recoverPubkey : ∀ digest raw, ¬ Res.Panics (cr.recoverPubkey digest raw)
  pubkeyToAddress : ∀ pk, ¬ Res.Panics (cr.pubkeyToAddress pk)

theorem safe_plain : Crypto.plain.Safe where
  recoverPubkey digest raw := by
    simp only [Crypto.plain]
    split <;> simp
  pubkeyToAddress pk := by
    simp only [Crypto.plain]
    split <;> simp

/-! ## proposals -/

/-- the amounts that `Add`, or `Remove`, compares; what the other half holds is not read -/
def Proposal.Readable (p : Proposal) : Prop :=
  match p.type with
  | .addProposal => p.toAdd.guarantee.amount ≠ none ∧ p.toAdd.leftDeposit ≠ none
  | .removeProposal => p.toRemove.leftAmount ≠ none

/-- the check of the target comes first, and stops a second guarantee or a missing one -/
def Proposal.Stopped (p : Proposal) (o : LedgerOutcome) : Prop :=
  match p.type with
  | .addProposal => p.toAdd.guarantee.target ∈ o.guarantees
  | .removeProposal => p.toRemove.target ∉ o.guarantees

namespace Vars
variable {v : Vars}

theorem panics_addChecks {o : LedgerOutcome} {p : Add} :
    Res.Panics (addChecks o p) ↔ p.guarantee.target ∉ o.guarantees ∧
      (p.guarantee.amount = none ∨ p.leftDeposit = none) := by
  unfold addChecks
  rw [Res.panics_failIf_bind]
  refine and_congr_right fun _ => ?_
  -- two `nil`s pass the first comparison and are caught by the second
  obtain ⟨⟨amount, target, left, right⟩, leftDeposit⟩ := p
  cases amount <;> cases leftDeposit <;>
    simp [BigInt.gt, Res.panics_failIf_bind, Add.rightDeposit, BigInt.deref]

theorem panics_removeChecks {o : LedgerOutcome} {p : Remove} :
    Res.Panics (removeChecks o p) ↔ p.target ∈ o.guarantees ∧ p.leftAmount = none := by
  unfold removeChecks
  cases hl : o.guarantees.lookup p.target with
  | none => simp [Finmap.lookup_eq_none.1 hl]
  | some g =>
    have hmem : p.target ∈ o.guarantees := Finmap.mem_of_lookup_eq_some hl
    cases ha : p.leftAmount <;> simp [BigInt.gt, Res.panics_failIf_bind, hmem]

theorem panics_handled {p : Proposal} :
    Res.Panics (v.handled p) ↔ ¬ p.Stopped v.outcome ∧ ¬ p.Readable := by
  unfold handled handleProposal Proposal.Stopped Proposal.Readable
  cases p.type with
  | addProposal =>
    dsimp only
    rcases add_cases p.toAdd v with ⟨g, left, hp, hc, hrun⟩ | ⟨e, hc, hrun⟩
    · rw [hrun, hp]
      simp [Guarantee.wire]
    · have h := panics_addChecks (o := v.outcome) (p := p.toAdd)
      rw [hc, Res.panics_error] at h
      rw [hrun]
      refine (Res.panics_error.trans h).trans ?_
      simp only [ne_eq]
      tauto
  | removeProposal =>
    dsimp only
    rcases remove_cases p.toRemove v with ⟨g, left, hp, hc, hrun⟩ | ⟨e, hc, hrun⟩
    · rw [hrun, hp]
      simp
    · have h := panics_removeChecks (o := v.outcome) (p := p.toRemove)
      rw [hc, Res.panics_error] at h
      rw [hrun]
      refine (Res.panics_error.trans h).trans ?_
      simp only [ne_eq, not_not]

end Vars

/-! ## signatures -/

theorem Crypto.Safe.recoverSigner {cr : Crypto} (hsafe : cr.Safe) (message : Bytes)
    (sig : Signature) : ¬ Res.Panics (recoverEthereumMessageSigner cr message sig) := by
  unfold recoverEthereumMessageSigner
  intro h
  rcases Res.panics_bind.1 h with h | ⟨pk, -, h⟩
  · exact hsafe.recoverPubkey _ _ h
  · exact hsafe.pubkeyToAddress _ h

theorem LedgerOutcome.not_panics_toVal (o : LedgerOutcome) : ¬ Res.Panics o.asOutcome.toVal := by
  have hall : ∀ a ∈ o.leader.asAllocation :: o.follower.asAllocation ::
      (sortedKeys (· ≤ ·) o.guarantees).filterMap fun target =>
        (o.guarantees.lookup target).map Guarantee.asAllocation, ¬ Res.Panics a.toVal := by
    intro a ha
    rcases List.mem_cons.1 ha with rfl | ha
    · exact Res.not_panics_ok _
    rcases List.mem_cons.1 ha with rfl | ha
    · exact Res.not_panics_ok _
    obtain ⟨target, -, h⟩ := List.mem_filterMap.1 ha
    obtain ⟨g, -, rfl⟩ := Option.map_eq_some_iff.1 h
    exact Res.not_panics_ok _
  intro h
  rcases Res.panics_bind.1 h with h | ⟨vs, -, h⟩
  · refine Res.not_panics_mapM (fun e he => ?_) h
    rw [List.mem_singleton.1 he]
    intro h
    rcases Res.panics_bind.1 h with h | ⟨as, -, h⟩
    · exact Res.not_panics_mapM hall h
    · exact Res.not_panics_ok _ h
  · exact Res.not_panics_ok _ h

theorem Vars.not_panics_recoverSigner {cr : Crypto} (hsafe : cr.Safe) {fp : FixedPart}
    {id : Destination} (hid : fp.channelId cr = .ok id) (v : Vars) (sig : Signature) :
    ¬ Res.Panics ((v.asState fp).recoverSigner cr sig) := by
  intro h
  rcases Res.panics_bind.1 h with h | ⟨hash, -, h⟩
  · rcases Res.panics_bind.1 h with h | ⟨encoded, -, h⟩
    · rw [Res.panics_wrap] at h
      rcases Res.panics_bind.1 h with h | ⟨cid, -, h⟩
      · have hid' : (v.asState fp).channelId cr = .ok id := hid
        rw [hid'] at h
        exact Res.not_panics_ok _ h
      · rcases Res.panics_bind.1 h with h | ⟨o, -, h⟩
        · exact v.outcome.not_panics_toVal h
        · exact Res.not_panics_ok _ h
    · exact Res.not_panics_ok _ h
  · exact hsafe.recoverSigner _ _ h

/-! ## the two receive paths -/

namespace ConsensusChannel
variable {cr : Crypto} {leader follower : Address} {c : ConsensusChannel}

theorem not_panics_leaderLoop (hsafe : cr.Safe) {fp : FixedPart} {id : Destination}
    (hid : fp.channelId cr = .ok id) (hf : fp.participants[followerIndex]? = some follower)
    (sp : SignedProposal) {v : Vars} {queue : List SignedProposal}
    (hq : QueueOk cr fp id leader v queue) : ¬ Res.Panics (leaderLoop cr fp sp v queue) := by
  induction queue generalizing v with
  | nil => exact Res.not_panics_err _
  | cons p queue ih =>
    obtain ⟨v', -, -, hstep, -, hrest⟩ := hq
    intro h
    unfold leaderLoop at h
    rw [Vars.handled_eq_ok.2 hstep, Res.ok_bind] at h
    by_cases ht : v'.turnNum = sp.turnNum
    · rw [if_pos ht, FixedPart.participant_eq_ok.2 hf] at h
      rcases Res.panics_bind.1 h with h | ⟨signer, -, h⟩
      · rw [Res.panics_wrap] at h
        exact Vars.not_panics_recoverSigner hsafe hid v' _ h
      · obtain ⟨-, h⟩ := Res.panics_failIf_bind.1 h
        exact Res.not_panics_ok _ h
    · rw [if_neg ht] at h
      exact ih hrest h

theorem not_panics_leaderUpdate (hsafe : cr.Safe) (hv : Valid cr leader follower c)
    (sp : SignedProposal) : ¬ Res.Panics (c.leaderUpdate cr sp) := by
  intro h
  obtain ⟨-, h⟩ := Res.panics_failIf_bind.1 h
  obtain ⟨-, h⟩ := Res.panics_failIf_bind.1 h
  by_cases hs : sp.turnNum ≤ c.current.vars.turnNum
  · simp only [if_pos hs] at h
    exact Res.not_panics_ok _ h
  · simp only [if_neg hs] at h
    rcases Res.panics_bind.1 h with h | ⟨u, -, h⟩
    · exact not_panics_leaderLoop hsafe hv.channelId hv.followerAddr sp hv.queue h
    · exact Res.not_panics_ok _ h

/-- the proposal that a follower applies to its latest `Vars` can be read -/
def Complete (c : ConsensusChannel) (sp : SignedProposal) : Prop :=
  c.myIndex = followerIndex → sp.proposal.ledgerID = c.id →
    ∀ latest, c.latestProposedVars = .ok latest → sp.turnNum = latest.turnNum + 1 →
      ¬ sp.proposal.Stopped latest.outcome → sp.proposal.Readable

theorem panics_followerChecks (hsafe : cr.Safe) (hv : Valid cr leader follower c)
    (sp : SignedProposal) (hrole : c.myIndex = followerIndex) :
    Res.Panics (c.followerChecks cr sp) ↔ ¬ c.Complete sp := by
  obtain ⟨latest, hlatest⟩ : ∃ v, c.latestProposedVars = .ok v := hv.queue.handleQueue
  unfold followerChecks validateProposalID
  rw [Res.panics_failIf_bind, Res.panics_failIf_bind, not_ne_iff, not_ne_iff, hlatest]
  show _ ∧ _ ∧ Res.Panics (failIf _ _ >>= _) ↔ _
  rw [Res.panics_failIf_bind, not_ne_iff]
  have hpanic : Res.Panics (do
      let vars ← (latest.handled sp.proposal).wrap "receive could not add new state vars: "
      let signer ← (c.recoverSigner cr vars sp.signature).wrap
        "receive could not recover signature: "
      let leader ← c.fp.participant leaderIndex
      failIf (signer ≠ leader) errInvalidProposalSignature) ↔
      Res.Panics (latest.handled sp.proposal) := by
    rw [Res.panics_bind, Res.panics_wrap]
    refine or_iff_left ?_
    rintro ⟨v, -, h⟩
    rcases Res.panics_bind.1 h with h | ⟨signer, -, h⟩
    · rw [Res.panics_wrap] at h
      exact Vars.not_panics_recoverSigner hsafe hv.channelId v _ h
    · rw [FixedPart.participant_eq_ok.2 hv.leaderAddr] at h
      exact Res.not_panics_failIf h
  rw [hpanic, Vars.panics_handled]
  constructor
  · rintro ⟨-, hid, hturn, hstop, hread⟩ hc
    exact hread (hc hrole hid latest hlatest hturn hstop)
  · intro hc
    by_contra hn
    refine hc fun _ hid latest' hl' hturn hstop => ?_
    obtain rfl : latest' = latest := Except.ok.inj (hl'.symm.trans hlatest)
    by_contra hread
    exact hn ⟨hrole, hid, hturn, hstop, hread⟩

theorem receive_error {sp : SignedProposal} {e : Fault} {c' : ConsensusChannel}
    (h : receive cr sp c = .error e c') : c' = c := by
  rcases @Op.call_receive cr sp c with ⟨d, hrun, -⟩ | ⟨e', hrun⟩
  · cases h.symm.trans hrun
  · cases h.symm.trans hrun
    rfl

theorem receive_panics_iff (hsafe : cr.Safe) (hv : Valid cr leader follower c)
    (sp : SignedProposal) : (∃ r, receive cr sp c = .error (.panic r) c) ↔ ¬ c.Complete sp := by
  by_cases hf : c.myIndex = followerIndex
  · rw [receive_follower hf, ← panics_followerChecks hsafe hv sp hf]
    cases hc : c.followerChecks cr sp with
    | ok u =>
      have hrun := Meth.read_ok (f := fun c : ConsensusChannel => c.followerChecks cr sp)
        (k := fun _ => modify fun c => { c with proposalQueue := c.proposalQueue ++ [sp] }) hc
      refine iff_of_false ?_ (Res.not_panics_ok u)
      rintro ⟨r, h⟩
      cases h.symm.trans hrun
    | error e =>
      have hrun : followerReceive cr sp c = .error e c :=
        Meth.read_error (f := fun c : ConsensusChannel => c.followerChecks cr sp) hc
      rw [hrun]
      constructor
      · rintro ⟨r, h⟩
        cases h
        exact Res.panics_panic r
      · rintro ⟨r, h⟩
        cases h
        exact ⟨r, rfl⟩
  · refine iff_of_false ?_ fun hc => hc fun h => absurd h hf
    rintro ⟨r, h⟩
    by_cases hl : c.myIndex = leaderIndex
    · rw [receive_leader hl] at h
      rcases hu : c.leaderUpdate cr sp with e | _ | ⟨sv, rest⟩
      · cases h.symm.trans (leaderReceive_refused hu)
        exact not_panics_leaderUpdate hsafe hv sp ⟨r, hu⟩
      · cases h.symm.trans (leaderReceive_ignored hu)
      · cases h.symm.trans (leaderReceive_moved hu)
    · cases h.symm.trans (receive_malformed hf hl)

/-- **a proposal, whatever its JSON was, is taken or refused, and a refusal changes nothing, exactly when it
is readable or stopped before its amounts are read** -/
theorem receive_returns_iff (hsc : SignCorrect cr) (hsafe : cr.Safe) {fp : FixedPart} {i : Nat}
    {turn : UInt64} {o : LedgerOutcome} {sigs : Signature × Signature} {events : List Event}
    {c₀ : ConsensusChannel} (hnew : newConsensusChannel cr fp i turn o sigs = .ok c₀)
    (hrun : run (Event.step cr) c₀ events = c) (sp : SignedProposal) :
    ((∀ r c', receive cr sp c ≠ .error (.panic r) c') ∧
      ∀ e c', receive cr sp c = .error e c' → c' = c) ↔ c.Complete sp := by
  obtain ⟨leader, follower, hv⟩ := valid_new hnew
  have hv' : Valid cr leader follower c := hrun ▸ run_inv (Event.valid_step hsc) hv
  rw [← not_iff_not, ← receive_panics_iff hsafe hv' sp]
  constructor
  · intro h
    by_contra hn
    refine h ⟨fun r c' hp => ?_, fun e c' he => receive_error he⟩
    have hc := receive_error hp
    rw [hc] at hp
    exact hn ⟨r, hp⟩
  · rintro ⟨r, h⟩ ⟨hp, -⟩
    exact hp r c h

end ConsensusChannel

/-! ## a proposal without an amount -/

namespace Sample

/-- the leader's first proposal, without a signature and with `null` for the deposit -/
def nullDeposit : SignedProposal :=
  ⟨default, newAddProposal ledgerId ⟨some 5, 3, 1, 2⟩ none, 1⟩

/-- the first proposal as the leader signs it -/
def firstAdd : SignedProposal :=
  ⟨sig (start.funded ⟨5, 3, 1, 2⟩ 5) 1, addOf 5, 1⟩

end Sample

namespace ConsensusChannel

/-- a proposal of the next turn for five, signed by nobody: the follower panics -/
theorem receive_null_deposit :
    newConsensusChannel Crypto.plain Sample.fp followerIndex 0 Sample.outcome
        (Sample.sig Sample.start 1, Sample.sig Sample.start 2) =
      .ok (Sample.ledger followerIndex) ∧
    SignedProposal.json.dec (SignedProposal.json.enc Sample.nullDeposit) = .ok Sample.nullDeposit ∧
    ∃ r, receive Crypto.plain Sample.nullDeposit (Sample.ledger followerIndex) =
      .error (.panic r) (Sample.ledger followerIndex) := by
  refine ⟨Sample.new_follower, SignedProposal.json.round _, ?_⟩
  obtain ⟨leader, follower, hv⟩ := valid_new Sample.new_follower
  refine (receive_panics_iff safe_plain hv _).2 fun hc => ?_
  have hread := hc rfl rfl Sample.start rfl rfl
    (show (3 : Destination) ∉ Sample.start.outcome.guarantees from Finmap.notMem_empty)
  simp [Proposal.Readable, Sample.nullDeposit, newAddProposal, Proposal.type, Add.zero] at hread

theorem receive_returns_first :
    Sample.ledger followerIndex = run (Event.step Crypto.plain) (Sample.ledger followerIndex) [] ∧
    (∀ r c', receive Crypto.plain Sample.firstAdd (Sample.ledger followerIndex) ≠
      .error (.panic r) c') := by
  refine ⟨rfl, ((receive_returns_iff signCorrect_plain safe_plain Sample.new_follower
    (show run (Event.step Crypto.plain) _ [] = _ from rfl) Sample.firstAdd).2 ?_).1⟩
  intro _ _ latest _ _ _
  show Proposal.Readable (Sample.addOf 5)
  simp [Proposal.Readable, Sample.addOf, newAddProposal, Proposal.type, Add.zero]

end ConsensusChannel

end Nitro
