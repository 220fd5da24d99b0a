import Nitro.Protocols.FundingSteps
import Nitro.Protocols.DefundingSteps

/-!
# What a virtual channel does to the balances of the ledgers under it

The proposal that adds a guarantee takes the left deposit from the leader, whoever that is; the proposal
that removes it pays the left amount to the left party, whoever leads.  So a ledger that is led by
its left party comes out right, and one that is led by its right party only if both deposits are
the same.

* `Later V v w`               the ledger moved on from `v` to `w` by proposals that are not about `V`;
* `Vars.change_eq`            what funding and defunding `V` does to the two balances;
* `Links`, `Defunds`          the connections of virtualfund objectives, and the virtualdefund
                              objectives, for one virtual channel;
* `intermediary_neutral_iff`  when Alice pays `p`, Bob receives `p` and the intermediary is neutral.
-/

set_option linter.unusedSectionVars false

namespace Nitro
open Go FinMap

/-! ## one ledger -/

/-- what a party owns in a ledger outside of guarantees -/
def Vars.balance (v : Vars) (d : Destination) : Int :=
  (if v.outcome.leader.destination = d then v.outcome.leader.amount else 0) +
    (if v.outcome.follower.destination = d then v.outcome.follower.amount else 0)

namespace Vars
variable {v v' w w' : Vars} {left right V : Destination} {a b p : Int}

structure Between (v : Vars) (left right : Destination) : Prop where
  ne : left ≠ right
  parties : v.outcome.leader.destination = left ∧ v.outcome.follower.destination = right ∨
    v.outcome.leader.destination = right ∧ v.outcome.follower.destination = left

theorem balance_leader {x y : Destination} (hl : v.outcome.leader.destination = x)
    (hf : v.outcome.follower.destination = y) (hne : x ≠ y) :
    v.balance x = v.outcome.leader.amount := by
  have hy : v.outcome.follower.destination ≠ x := by
    rw [hf]
    exact hne.symm
  simp [balance, hl, hy]

theorem balance_follower {x y : Destination} (hl : v.outcome.leader.destination = x)
    (hf : v.outcome.follower.destination = y) (hne : x ≠ y) :
    v.balance y = v.outcome.follower.amount := by
  have hx : v.outcome.leader.destination ≠ y := by
    rw [hl]
    exact hne
  simp [balance, hf, hx]

theorem handled_add {id : Destination} {g : Guarantee Int} {deposit : Int} :
    v.handled (newAddProposal id g.wire (some deposit)) = .ok v' ↔
      g.target ∉ v.outcome.guarantees ∧ deposit ≤ g.amount ∧
      deposit ≤ v.outcome.leader.amount ∧ g.amount - deposit ≤ v.outcome.follower.amount ∧
      v' = v.funded g deposit := by
  rw [handled_eq_ok]
  constructor
  · intro h
    obtain ⟨amount, target, left, right⟩ := g
    generalize hp : newAddProposal id _ (some deposit) = q at h
    cases h with
    | @add id' r g' deposit' fresh h₁ h₂ h₃ =>
      obtain ⟨amount', target', left', right'⟩ := g'
      cases hp
      exact ⟨fresh, h₁, h₂, h₃, rfl⟩
    | remove found hle => cases hp
  · rintro ⟨fresh, h₁, h₂, h₃, rfl⟩
    exact .add fresh h₁ h₂ h₃

theorem handled_remove {id target : Destination} {amount : Int} :
    v.handled (newRemoveProposal id target (some amount)) = .ok v' ↔
      ∃ g, v.outcome.guarantees.lookup target = some g ∧ amount ≤ g.amount ∧
        v' = v.released target g amount := by
  rw [handled_eq_ok]
  constructor
  · intro h
    generalize hp : newRemoveProposal id target (some amount) = q at h
    cases h with
    | add fresh h₁ h₂ h₃ => cases hp
    | remove found hle =>
      cases hp
      exact ⟨_, found, hle, rfl⟩
  · rintro ⟨g, found, hle, rfl⟩
    exact .remove found hle

/-- the ledger moved on by proposals that are not about `V` -/
def Later (V : Destination) (v w : Vars) : Prop :=
  ∃ q : List SignedProposal, (∀ sp ∈ q, sp.proposal.target ≠ V) ∧ v.handleQueue q = .ok w

structure SameFor (V : Destination) (v w : Vars) : Prop where
  leader : w.outcome.leader.destination = v.outcome.leader.destination
  follower : w.outcome.follower.destination = v.outcome.follower.destination
  guarantee : w.outcome.guarantees.lookup V = v.outcome.guarantees.lookup V

theorem Step.sameFor {q : Proposal} (h : v.Step q w) (hq : q.target ≠ V) : SameFor V v w := by
  cases h with
  | @add id r g deposit fresh h₁ h₂ h₃ =>
    have htarget : g.target ≠ V := by
      intro e
      apply hq
      simpa [Proposal.target, Proposal.type, Add.zero, Guarantee.wire] using e
    refine ⟨rfl, rfl, ?_⟩
    show (v.outcome.guarantees.insert g.target g).lookup V = _
    rw [Finmap.lookup_insert_of_ne _ (Ne.symm htarget)]
  | @remove id target g amount found hle =>
    have htarget : target ≠ V := by
      intro e
      apply hq
      simpa [Proposal.target, Proposal.type] using e
    refine ⟨rfl, rfl, ?_⟩
    show (v.outcome.guarantees.erase target).lookup V = _
    rw [Finmap.lookup_erase_ne (Ne.symm htarget)]

theorem Later.sameFor (h : Later V v w) : SameFor V v w := by
  obtain ⟨q, hq, h⟩ := h
  induction q generalizing v with
  | nil =>
    cases h
    exact ⟨rfl, rfl, rfl⟩
  | cons sp q ih =>
    obtain ⟨u, hstep, h⟩ := handleQueue_cons_ok h
    have hsame := hstep.sameFor (hq sp List.mem_cons_self)
    obtain ⟨h₁, h₂, h₃⟩ := ih (fun x hx => hq x (List.mem_cons_of_mem sp hx)) h
    exact ⟨h₁.trans hsame.leader, h₂.trans hsame.follower, h₃.trans hsame.guarantee⟩

theorem Later.refl (V : Destination) (v : Vars) : Later V v v :=
  ⟨[], fun _ h => absurd h List.not_mem_nil, rfl⟩

/-- the change of a balance by one step from `v` to `v'` and a later one from `w` to `w'` -/
def change (d : Destination) (v v' w w' : Vars) : Int :=
  (v'.balance d - v.balance d) + (w'.balance d - w.balance d)

theorem change_of_roles {x y : Destination} {g : Guarantee Int} {deposit amount : Int}
    (hl : v.outcome.leader.destination = x) (hf : v.outcome.follower.destination = y)
    (hne : x ≠ y) (hw : SameFor V (v.funded g deposit) w) :
    change x v (v.funded g deposit) w (w.released V g amount) =
      leaderShare w.outcome g amount - deposit ∧
    change y v (v.funded g deposit) w (w.released V g amount) =
      deposit - leaderShare w.outcome g amount := by
  have hwl : w.outcome.leader.destination = x := hw.leader.trans hl
  have hwf : w.outcome.follower.destination = y := hw.follower.trans hf
  unfold change
  rw [balance_leader hl hf hne, balance_follower hl hf hne, balance_leader hwl hwf hne,
    balance_follower hwl hwf hne, balance_leader (v := v.funded g deposit) hl hf hne,
    balance_follower (v := v.funded g deposit) hl hf hne,
    balance_leader (v := w.released V g amount) hwl hwf hne,
    balance_follower (v := w.released V g amount) hwl hwf hne]
  simp only [funded, released, setGuarantees, creditLeader, creditFollower, incTurn]
  omega

/-- what goes to the wrong party when `a` was to come from `left` and `b` from the other one -/
def misplaced (v : Vars) (left : Destination) (a b : Int) : Int :=
  if v.outcome.leader.destination = left then 0 else a - b

/-- the guarantee for `V`, with `a` from the left party and `b` from the right one -/
def guaranteeFor (V left right : Destination) (a b : Int) : Guarantee Int := ⟨a + b, V, left, right⟩

/-- **the left party ends with `p` less, the right one with `p` more**, up to what was misplaced: the
deposits are taken by position and paid back by name -/
theorem change_eq (hv : v.Between left right)
    (hw : SameFor V (v.funded (guaranteeFor V left right a b) a) w) :
    change left v (v.funded (guaranteeFor V left right a b) a) w
      (w.released V (guaranteeFor V left right a b) (a - p)) = -p + v.misplaced left a b ∧
    change right v (v.funded (guaranteeFor V left right a b) a) w
      (w.released V (guaranteeFor V left right a b) (a - p)) = p - v.misplaced left a b := by
  have hne := hv.ne
  unfold misplaced
  rcases hv.parties with ⟨hl, hf⟩ | ⟨hl, hf⟩
  · have hshare : leaderShare w.outcome (guaranteeFor V left right a b) (a - p) = a - p :=
      if_pos (hw.leader.trans hl)
    obtain ⟨hleft, hright⟩ := change_of_roles hl hf hne hw
    rw [hleft, hright, hshare, if_pos hl]
    omega
  · have hother : w.outcome.leader.destination ≠ left := by
      rw [hw.leader.trans hl]
      exact hne.symm
    have hshare : leaderShare w.outcome (guaranteeFor V left right a b) (a - p) =
        a + b - (a - p) := if_neg hother
    obtain ⟨hright, hleft⟩ := change_of_roles hl hf hne.symm hw
    rw [hleft, hright, hshare, if_neg (hl ▸ hne.symm)]
    omega

theorem handled_fund {id : Destination} (hv : v.Between left right)
    (fresh : V ∉ v.outcome.guarantees) (ha : a ≤ v.balance left) (hb : b ≤ v.balance right)
    (hpos : 0 ≤ b) (hlead : v.outcome.leader.destination = left ∨ a = b) :
    v.handled (newAddProposal id (guaranteeFor V left right a b).wire (some a)) =
      .ok (v.funded (guaranteeFor V left right a b) a) := by
  have hne := hv.ne
  refine handled_add.2 ⟨fresh, ?_, ?_, ?_, rfl⟩
  · show a ≤ a + b
    omega
  all_goals rcases hv.parties with ⟨hl, hf⟩ | ⟨hl, hf⟩
  · rwa [balance_leader hl hf hne] at ha
  · rw [balance_leader hl hf hne.symm] at hb
    rcases hlead with hlead | rfl
    · exact absurd (hlead.symm.trans hl) hne
    · exact hb
  · rw [balance_follower hl hf hne] at hb
    show a + b - a ≤ _
    omega
  · rw [balance_follower hl hf hne.symm] at ha
    rcases hlead with hlead | rfl
    · exact absurd (hlead.symm.trans hl) hne
    · show a + a - a ≤ _
      omega

theorem handled_defund {id : Destination} (hp : 0 ≤ p) (hpos : 0 ≤ b)
    (hw : SameFor V (v.funded (guaranteeFor V left right a b) a) w) :
    w.handled (newRemoveProposal id V (some (a - p))) =
      .ok (w.released V (guaranteeFor V left right a b) (a - p)) := by
  refine handled_remove.2 ⟨guaranteeFor V left right a b, ?_, ?_, rfl⟩
  · rw [hw.guarantee]
    show (v.outcome.guarantees.insert V _).lookup V = _
    rw [Finmap.lookup_insert]
  · show a - p ≤ a + b
    omega

/-! ## both ledgers -/

/-- a virtual channel is funded in both ledgers and defunded later: Alice pays `p` and Bob receives
`p`, and the intermediary has as much as before -/
def Neutral (v₁ v₂ : Vars) (add₁ add₂ remove₁ remove₂ : Proposal) (V alice irene bob : Destination)
    (p : Int) : Prop :=
  ∃ v₁' v₂', v₁.handled add₁ = .ok v₁' ∧ v₂.handled add₂ = .ok v₂' ∧
    ∀ w₁ w₂, Later V v₁' w₁ → Later V v₂' w₂ →
      ∃ w₁' w₂', w₁.handled remove₁ = .ok w₁' ∧ w₂.handled remove₂ = .ok w₂' ∧
        change alice v₁ v₁' w₁ w₁' = -p ∧ change bob v₂ v₂' w₂ w₂' = p ∧
        change irene v₁ v₁' w₁ w₁' + change irene v₂ v₂' w₂ w₂' = 0

theorem misplaced_eq_zero_iff : v.misplaced left a b = 0 ↔
    v.outcome.leader.destination = left ∨ a = b := by
  unfold misplaced
  by_cases h : v.outcome.leader.destination = left
  · simp [h]
  · simp [h, sub_eq_zero]

section neutral
variable {v₁ v₂ : Vars} {alice irene bob id₁ id₂ : Destination}
variable (h₁ : v₁.Between alice irene) (h₂ : v₂.Between irene bob) (hp : 0 ≤ p)
include h₁ h₂ hp

theorem neutral_of_led (hb : 0 ≤ b)
    (fresh : V ∉ v₁.outcome.guarantees ∧ V ∉ v₂.outcome.guarantees)
    (ha₁ : a ≤ v₁.balance alice) (hb₁ : b ≤ v₁.balance irene) (ha₂ : a ≤ v₂.balance irene)
    (hb₂ : b ≤ v₂.balance bob) (hlead₁ : v₁.outcome.leader.destination = alice ∨ a = b)
    (hlead₂ : v₂.outcome.leader.destination = irene ∨ a = b) :
    Neutral v₁ v₂ (newAddProposal id₁ (guaranteeFor V alice irene a b).wire (some a))
      (newAddProposal id₂ (guaranteeFor V irene bob a b).wire (some a))
      (newRemoveProposal id₁ V (some (a - p))) (newRemoveProposal id₂ V (some (a - p)))
      V alice irene bob p := by
  refine ⟨_, _, handled_fund h₁ fresh.1 ha₁ hb₁ hb hlead₁,
    handled_fund h₂ fresh.2 ha₂ hb₂ hb hlead₂, ?_⟩
  intro w₁ w₂ hw₁ hw₂
  obtain ⟨halice, hirene₁⟩ := change_eq (p := p) h₁ hw₁.sameFor
  obtain ⟨hirene₂, hbob⟩ := change_eq (p := p) h₂ hw₂.sameFor
  refine ⟨_, _, handled_defund hp hb hw₁.sameFor, handled_defund hp hb hw₂.sameFor, ?_, ?_, ?_⟩
  · rw [halice, misplaced_eq_zero_iff.2 hlead₁, add_zero]
  · rw [hbob, misplaced_eq_zero_iff.2 hlead₂, sub_zero]
  · rw [hirene₁, hirene₂, misplaced_eq_zero_iff.2 hlead₁, misplaced_eq_zero_iff.2 hlead₂]
    omega

/-- conversely: it is enough to look at what happens when nothing comes between -/
theorem led_of_neutral
    (h : Neutral v₁ v₂ (newAddProposal id₁ (guaranteeFor V alice irene a b).wire (some a))
      (newAddProposal id₂ (guaranteeFor V irene bob a b).wire (some a))
      (newRemoveProposal id₁ V (some (a - p))) (newRemoveProposal id₂ V (some (a - p)))
      V alice irene bob p) :
    0 ≤ b ∧ (V ∉ v₁.outcome.guarantees ∧ V ∉ v₂.outcome.guarantees) ∧
      (v₁.outcome.leader.destination = alice ∨ a = b) ∧
      (v₂.outcome.leader.destination = irene ∨ a = b) := by
  obtain ⟨v₁', v₂', hadd₁, hadd₂, h⟩ := h
  obtain ⟨fresh₁, hle, -, -, rfl⟩ := handled_add.1 hadd₁
  obtain ⟨fresh₂, -, -, -, rfl⟩ := handled_add.1 hadd₂
  have hb : 0 ≤ b := by
    have hle : a ≤ a + b := hle
    omega
  obtain ⟨w₁', w₂', hrem₁, hrem₂, halice, hbob, -⟩ :=
    h _ _ (Later.refl V _) (Later.refl V _)
  have hsame₁ := (Later.refl V (v₁.funded (guaranteeFor V alice irene a b) a)).sameFor
  have hsame₂ := (Later.refl V (v₂.funded (guaranteeFor V irene bob a b) a)).sameFor
  rw [handled_defund hp hb hsame₁, Except.ok.injEq] at hrem₁
  rw [handled_defund hp hb hsame₂, Except.ok.injEq] at hrem₂
  subst hrem₁ hrem₂
  rw [(change_eq h₁ hsame₁).1] at halice
  rw [(change_eq h₂ hsame₂).2] at hbob
  refine ⟨hb, ⟨fresh₁, fresh₂⟩, misplaced_eq_zero_iff.1 ?_, misplaced_eq_zero_iff.1 ?_⟩
  · omega
  · omega

end neutral

end Vars

/-! ## the proposals that the objectives compute -/

/-- an amount of one asset -/
abbrev Funds.single (asset : Address) (a : Int) : Funds := (∅ : Funds).insert asset a

theorem Funds.keys_single (asset : Address) (a : Int) : (single asset a).keys = {asset} := by
  ext d
  rw [Finmap.mem_keys, Finmap.mem_insert, Finset.mem_singleton]
  exact or_iff_left Finmap.notMem_empty

theorem Funds.amount_single (asset : Address) (a : Int) : (single asset a).amount asset = a :=
  amount_of_lookup (Finmap.lookup_insert _)

namespace VirtualFund
variable {cr : Crypto} {s : State}

/-- the connection between the participants `i` and `i + 1` of `V`, as one of the two has it -/
def Links (cr : Crypto) (s : State) (i : Nat) (c : Connection) : Prop :=
  ∃ preApprove myAddress leftCC rightCC o,
    constructFromState cr preApprove s myAddress leftCC rightCC = .ok o ∧
      (o.myRole = i ∧ o.toMyRight = some c ∨ o.myRole = i + 1 ∧ o.toMyLeft = some c)

theorem Links.info {i : Nat} {c : Connection} (h : Links cr s i c) :
    ∃ vId alice bob a0 b0, s.channelId cr = .ok vId ∧
      initialAmounts alice bob 1 s.outcome (∅, ∅) = .ok (a0, b0) ∧
      Informed s vId a0 b0 i c.guaranteeInfo := by
  obtain ⟨preApprove, myAddress, leftCC, rightCC, o, h, hlink⟩ := h
  obtain ⟨-, -, -, -, -, hnew, ⟨alice, bob, -, -, hamounts⟩, hconn⟩ := constructFromState_ok h
  obtain ⟨hid, -, -, -, -⟩ := Channel.new_ok hnew
  refine ⟨o.v.id, alice, bob, o.a0, o.b0, hid, hamounts, ?_⟩
  rcases hlink with ⟨hrole, hc⟩ | ⟨hrole, hc⟩
  · have hinfo := ((hconn .right).2 c hc).2
    rwa [show Side.right.position o.myRole = i from hrole] at hinfo
  · have hinfo := ((hconn .left).2 c hc).2
    rwa [show Side.left.position o.myRole = i by rw [hrole]; rfl] at hinfo

structure SingleAsset (s : State) (alice irene bob : Address) (a b : Int) : Prop where
  participants : s.participants = [alice, irene, bob]
  outcome : ∃ asset metadata x y, s.outcome = [⟨asset, metadata, [x, y]⟩] ∧
    x.amount = some a ∧ y.amount = some b

theorem initialAmounts_single {alice bob asset : Address} {n : Nat} {metadata : Bytes}
    {x y : Allocation} {a b : Int} {f g : Funds} (hx : x.amount = some a) (hy : y.amount = some b)
    (h : initialAmounts alice bob n [⟨asset, metadata, [x, y]⟩] (∅, ∅) = .ok (f, g)) :
    f = .single asset a ∧ g = .single asset b := by
  obtain ⟨slot0, slot1, amount0, amount1, h0, h1, ha, hb, hend⟩ := initialAmounts_cons h
  cases h0
  cases h1
  cases hx.symm.trans ha
  cases hy.symm.trans hb
  cases hend
  simp [Funds.amount_empty]

/-- with one asset it does not matter in which order a loop goes through the amounts -/
theorem Informed.expectedProposal {c : Connection} {alice irene bob x y alice' bob' : Address}
    {a b : Int} {V : Destination} {f g : Funds} {i : Nat}
    (h : Informed s V f g i c.guaranteeInfo) (hs : SingleAsset s alice irene bob a b)
    (hamounts : initialAmounts alice' bob' 1 s.outcome (∅, ∅) = .ok (f, g))
    (hx : s.participants[i]? = some x) (hy : s.participants[i + 1]? = some y)
    (r r' : RangeOrder) :
    c.getExpectedGuarantee r = (Vars.guaranteeFor V (addressToDestination x)
      (addressToDestination y) a b).wire ∧
    c.expectedProposal r r' = newAddProposal c.channel.id (Vars.guaranteeFor V
      (addressToDestination x) (addressToDestination y) a b).wire (some a) := by
  obtain ⟨x', y', hx', hy', hinfo⟩ := h
  obtain ⟨asset, metadata, u, w, houtcome, hu, hw⟩ := hs.outcome
  rw [houtcome] at hamounts
  obtain ⟨rfl, rfl⟩ := initialAmounts_single hu hw hamounts
  cases hx.symm.trans hx'
  cases hy.symm.trans hy'
  have hguarantee := c.getExpectedGuarantee_single r hinfo (Funds.keys_single asset a)
    (Funds.keys_single asset b)
  have hproposal := c.expectedProposal_single r r' hinfo (Funds.keys_single asset a)
    (Funds.keys_single asset b)
  rw [Funds.amount_single, Funds.amount_single] at hguarantee hproposal
  exact ⟨hguarantee, hproposal⟩

theorem expectedProposal_eq {i : Nat} {c : Connection} {alice irene bob x y : Address} {a b : Int}
    {V : Destination} (h : Links cr s i c) (hs : SingleAsset s alice irene bob a b)
    (hV : s.channelId cr = .ok V) (hx : s.participants[i]? = some x)
    (hy : s.participants[i + 1]? = some y) (r r' : RangeOrder) :
    c.expectedProposal r r' = newAddProposal c.channel.id (Vars.guaranteeFor V
      (addressToDestination x) (addressToDestination y) a b).wire (some a) := by
  obtain ⟨vId, _, _, f, g, hid, hamounts, hinfo⟩ := h.info
  cases hid.symm.trans hV
  exact (hinfo.expectedProposal hs hamounts hx hy r r').2

end VirtualFund

namespace VirtualDefund
variable {cr : Crypto} {s : State} {p : Int} {d : Objective}

/-- an objective that defunds the channel with `p` paid to Bob -/
def Defunds (s : State) (p : Int) (d : Objective) : Prop :=
  ∃ request preApprove myAddress getChannel getConsensusChannel channel,
    newObjective request preApprove myAddress getChannel getConsensusChannel = .ok d ∧
      request.paidToBob = some p ∧ getChannel request.channelId = some channel ∧
      channel.fixedPart = s.fixedPart ∧ channel.postFundState.outcome = s.outcome

theorem Defunds.fields (h : Defunds s p d) :
    d.paidToBob = some p ∧ d.vFixed = s.fixedPart ∧ s.outcome[0]? = some d.initialOutcome := by
  obtain ⟨request, _, _, getChannel, _, channel, h, hp, hfound, hfixed, houtcome⟩ := h
  obtain ⟨channel', hfound', hinitial, hpaid, hvFixed, -, -⟩ := newObjective_ok h
  cases hfound.symm.trans hfound'
  rw [houtcome] at hinitial
  exact ⟨hpaid.trans hp, hvFixed.trans hfixed, hinitial⟩

theorem ledgerProposal_eq {alice irene bob : Address} {a b : Int} {V : Destination}
    (h : Defunds s p d) (hs : VirtualFund.SingleAsset s alice irene bob a b)
    (hV : s.channelId cr = .ok V) (ledger : ConsensusChannel) :
    d.ledgerProposal cr ledger = .ok (newRemoveProposal ledger.id V (some (a - p))) := by
  obtain ⟨hp, hfixed, hinitial⟩ := h.fields
  obtain ⟨asset, metadata, x, y, houtcome, hx, hy⟩ := hs.outcome
  have hinitial : d.initialOutcome = ⟨asset, metadata, [x, y]⟩ := by
    rw [houtcome] at hinitial
    exact (Option.some.inj hinitial).symm
  have hclone : d.initialOutcome.clone = .ok ⟨asset, metadata, [x, y]⟩ := by
    simp [hinitial, SingleAssetExit.clone, Allocations.clone, Allocation.clone_some hx,
      Allocation.clone_some hy]
  have hfinal : d.finalOutcome = .ok ⟨asset, metadata, [{ x with amount := some (a - p) },
      { y with amount := some (b + p) }]⟩ := by
    unfold Objective.finalOutcome
    rw [hclone, hp]
    simp [hx, hy, BigInt.deref]
  have hvId : d.vId cr = .ok V := by
    unfold Objective.vId
    rw [hfixed]
    exact hV
  unfold Objective.ledgerProposal
  rw [hfinal, hvId]
  rfl

end VirtualDefund

open VirtualFund VirtualDefund in
/-- **the intermediary is neutral** exactly when each ledger is led by its left party, unless both
deposits are the same -/
theorem intermediary_neutral_iff {cr : Crypto} {s : State} {V : Destination}
    {alice irene bob : Address} {a b p : Int} {c₁ c₂ : Connection}
    {d₁ d₂ : VirtualDefund.Objective} {v₁ v₂ : Vars} (r₁ r₁' r₂ r₂' : RangeOrder)
    (hs : SingleAsset s alice irene bob a b) (hV : s.channelId cr = .ok V)
    (hc₁ : Links cr s 0 c₁) (hc₂ : Links cr s 1 c₂)
    (hd₁ : Defunds s p d₁) (hd₂ : Defunds s p d₂) (hp : 0 ≤ p)
    (h₁ : v₁.Between (addressToDestination alice) (addressToDestination irene))
    (h₂ : v₂.Between (addressToDestination irene) (addressToDestination bob))
    (ha₁ : a ≤ v₁.balance (addressToDestination alice))
    (hb₁ : b ≤ v₁.balance (addressToDestination irene))
    (ha₂ : a ≤ v₂.balance (addressToDestination irene))
    (hb₂ : b ≤ v₂.balance (addressToDestination bob)) :
    ∃ remove₁ remove₂, d₁.ledgerProposal cr c₁.channel = .ok remove₁ ∧
      d₂.ledgerProposal cr c₂.channel = .ok remove₂ ∧
      (Vars.Neutral v₁ v₂ (c₁.expectedProposal r₁ r₁') (c₂.expectedProposal r₂ r₂') remove₁ remove₂
          V (addressToDestination alice) (addressToDestination irene) (addressToDestination bob) p ↔
        0 ≤ b ∧ (V ∉ v₁.outcome.guarantees ∧ V ∉ v₂.outcome.guarantees) ∧
        (v₁.outcome.leader.destination = addressToDestination alice ∨ a = b) ∧
        (v₂.outcome.leader.destination = addressToDestination irene ∨ a = b)) := by
  have hpart := hs.participants
  refine ⟨_, _, ledgerProposal_eq hd₁ hs hV _, ledgerProposal_eq hd₂ hs hV _, ?_⟩
  rw [expectedProposal_eq (x := alice) (y := irene) hc₁ hs hV (by rw [hpart]; rfl)
      (by rw [hpart]; rfl),
    expectedProposal_eq (x := irene) (y := bob) hc₂ hs hV (by rw [hpart]; rfl)
      (by rw [hpart]; rfl)]
  constructor
  · exact Vars.led_of_neutral h₁ h₂ hp
  · rintro ⟨hb, fresh, hlead₁, hlead₂⟩
    exact Vars.neutral_of_led h₁ h₂ hp hb fresh ha₁ hb₁ ha₂ hb₂ hlead₁ hlead₂

/-! ## two ledgers of the intermediary -/

namespace Sample

/-- a loop that meets the smallest key first -/
def ascending : RangeOrder where
  first f := (sortedKeys (fun a b : Address => a ≤ b) f).head?
  mem h := (mem_sortedKeys _).1 (List.mem_of_mem_head? h)
  empty := by
    intro f h
    refine Finmap.ext_lookup fun a => ?_
    rw [Finmap.lookup_empty, Finmap.lookup_eq_none, ← mem_sortedKeys (fun a b : Address => a ≤ b),
      List.head?_eq_none_iff.1 h]
    exact List.not_mem_nil

def orders : Side → VirtualFund.Objective.LoopOrders :=
  fun _ => ⟨ascending, ascending, ascending, ascending, ascending⟩

/-- Alice has address 1, the intermediary 2 and Bob 3 -/
def virtualState : State :=
  { state 0 with
    participants := [1, 2, 3]
    outcome := [⟨0, [], [⟨1, some 5, 0, []⟩, ⟨3, some 3, 0, []⟩]⟩] }

/-- a state of the channel with the signatures of the intermediary and Bob -/
def signedByOthers (s : State) : SignedState :=
  ⟨s, some (((∅ : SigMap).insert 1 (sigOn s 2)).insert 2 (sigOn s 3))⟩

/-- a ledger with a hundred for each of the two parties -/
def ledgerLedBy (leader follower : Nat) : ConsensusChannel where
  myIndex := leaderIndex
  fp := { fp with participants := [leader, follower] }
  id := (FixedPart.channelId Crypto.plain
    { fp with participants := [leader, follower] }).toOption.getD 0
  onChainFunding := ∅
  current :=
    let v : Vars := ⟨0, LedgerOutcome.new 0 ⟨leader, 100⟩ ⟨follower, 100⟩ []⟩
    let fp' := { fp with participants := [(leader : Address), (follower : Address)] }
    ⟨v, (sigOn (v.asState fp') leader, sigOn (v.asState fp') follower)⟩
  proposalQueue := []

def virtualId : Destination := (virtualState.channelId Crypto.plain).toOption.getD 0

theorem virtualState_channelId : virtualState.channelId Crypto.plain = .ok virtualId := by
  decide +kernel

theorem virtualState_single : VirtualFund.SingleAsset virtualState 1 2 3 5 3 :=
  ⟨rfl, 0, [], _, _, rfl, rfl, rfl⟩

/-- the intermediary's two objectives, with two paid to Bob -/
def objectives (left right : ConsensusChannel) :
    Res (VirtualFund.Objective × VirtualDefund.Objective) := do
  let o ← VirtualFund.constructFromState Crypto.plain true virtualState 2 (some left) (some right)
  let d ← VirtualDefund.newObjective ⟨o.v.id, some 2⟩ true 2 (fun _ => some o.v)
    (fun a => if a = 1 then some left else some right)
  .ok (o, d)

theorem linked (left right : ConsensusChannel)
    (h : (objectives left right >>= fun r => .ok (r.1.myRole, r.1.toMyLeft.isSome,
      r.1.toMyRight.isSome, r.1.v.fixedPart, r.1.v.postFundState.outcome)) =
        .ok (1, true, true, virtualState.fixedPart, virtualState.outcome)) :
    ∃ c₁ c₂ d, VirtualFund.Links Crypto.plain virtualState 0 c₁ ∧
      VirtualFund.Links Crypto.plain virtualState 1 c₂ ∧
      VirtualDefund.Defunds virtualState 2 d := by
  obtain ⟨r, hr, h⟩ := Res.bind_eq_ok.1 h
  obtain ⟨o, ho, hr⟩ := Res.bind_eq_ok.1 hr
  obtain ⟨d, hd, hend⟩ := Res.bind_eq_ok.1 hr
  cases hend
  simp only [Except.ok.injEq, Prod.mk.injEq] at h
  obtain ⟨hrole, hleft, hright, hfixed, houtcome⟩ := h
  obtain ⟨c₁, hc₁⟩ := Option.isSome_iff_exists.1 hleft
  obtain ⟨c₂, hc₂⟩ := Option.isSome_iff_exists.1 hright
  exact ⟨c₁, c₂, d, ⟨_, _, _, _, o, ho, .inr ⟨hrole, hc₁⟩⟩, ⟨_, _, _, _, o, ho, .inl ⟨hrole, hc₂⟩⟩,
    _, _, _, _, _, o.v, hd, rfl, rfl, hfixed, houtcome⟩

end Sample

open VirtualFund VirtualDefund Sample

theorem intermediary_neutral_two :
    ∃ c₁ c₂ d remove₁ remove₂, Links Crypto.plain virtualState 0 c₁ ∧
      Links Crypto.plain virtualState 1 c₂ ∧ Defunds virtualState 2 d ∧
      d.ledgerProposal Crypto.plain c₁.channel = .ok remove₁ ∧
      d.ledgerProposal Crypto.plain c₂.channel = .ok remove₂ ∧
      Vars.Neutral (ledgerLedBy 1 2).current.vars (ledgerLedBy 2 3).current.vars
        (c₁.expectedProposal ascending ascending) (c₂.expectedProposal ascending ascending)
        remove₁ remove₂ virtualId (addressToDestination 1) (addressToDestination 2)
        (addressToDestination 3) 2 := by
  obtain ⟨c₁, c₂, d, hc₁, hc₂, hd⟩ :=
    Sample.linked (ledgerLedBy 1 2) (ledgerLedBy 2 3) (by decide +kernel)
  have h₁ : (ledgerLedBy 1 2).current.vars.Between (addressToDestination 1)
      (addressToDestination 2) := ⟨by decide, .inl ⟨rfl, rfl⟩⟩
  have h₂ : (ledgerLedBy 2 3).current.vars.Between (addressToDestination 2)
      (addressToDestination 3) := ⟨by decide, .inl ⟨rfl, rfl⟩⟩
  obtain ⟨remove₁, remove₂, hrem₁, hrem₂, hiff⟩ := intermediary_neutral_iff
    ascending ascending ascending ascending virtualState_single virtualState_channelId hc₁ hc₂ hd hd
    (by decide) h₁ h₂ (by decide) (by decide) (by decide) (by decide)
  exact ⟨c₁, c₂, d, remove₁, remove₂, hc₁, hc₂, hd, hrem₁, hrem₂,
    hiff.2 ⟨by decide, ⟨Finmap.notMem_empty, Finmap.notMem_empty⟩, .inl rfl, .inl rfl⟩⟩

/-- the intermediary leads both ledgers: Alice pays nothing, and Bob's two come from the
intermediary -/
theorem intermediary_pays :
    ∃ c₁ c₂ d remove₁ remove₂ v₁ v₂ w₁ w₂, Links Crypto.plain virtualState 0 c₁ ∧
      Links Crypto.plain virtualState 1 c₂ ∧ Defunds virtualState 2 d ∧
      d.ledgerProposal Crypto.plain c₁.channel = .ok remove₁ ∧
      d.ledgerProposal Crypto.plain c₂.channel = .ok remove₂ ∧
      (ledgerLedBy 2 1).current.vars.handled (c₁.expectedProposal ascending ascending) = .ok v₁ ∧
      (ledgerLedBy 2 3).current.vars.handled (c₂.expectedProposal ascending ascending) = .ok v₂ ∧
      v₁.handled remove₁ = .ok w₁ ∧ v₂.handled remove₂ = .ok w₂ ∧
      (ledgerLedBy 2 1).current.vars.balance 1 = 100 ∧ w₁.balance 1 = 100 ∧
      (ledgerLedBy 2 3).current.vars.balance 3 = 100 ∧ w₂.balance 3 = 102 ∧
      (ledgerLedBy 2 1).current.vars.balance 2 + (ledgerLedBy 2 3).current.vars.balance 2 = 200 ∧
      w₁.balance 2 + w₂.balance 2 = 198 := by
  obtain ⟨c₁, c₂, d, hc₁, hc₂, hd⟩ :=
    Sample.linked (ledgerLedBy 2 1) (ledgerLedBy 2 3) (by decide +kernel)
  have hV := virtualState_channelId
  have hs := virtualState_single
  have hadd₁ : (ledgerLedBy 2 1).current.vars.handled (c₁.expectedProposal ascending ascending) =
      .ok ((ledgerLedBy 2 1).current.vars.funded (Vars.guaranteeFor virtualId 1 2 5 3) 5) := by
    rw [expectedProposal_eq (x := 1) (y := 2) hc₁ hs hV rfl rfl]
    exact Vars.handled_add.2 ⟨Finmap.notMem_empty, by decide, by decide, by decide, rfl⟩
  have hadd₂ : (ledgerLedBy 2 3).current.vars.handled (c₂.expectedProposal ascending ascending) =
      .ok ((ledgerLedBy 2 3).current.vars.funded (Vars.guaranteeFor virtualId 2 3 5 3) 5) := by
    rw [expectedProposal_eq (x := 2) (y := 3) hc₂ hs hV rfl rfl]
    exact Vars.handled_add.2 ⟨Finmap.notMem_empty, by decide, by decide, by decide, rfl⟩
  exact ⟨c₁, c₂, d, _, _, _, _, _, _, hc₁, hc₂, hd, ledgerProposal_eq hd hs hV _,
    ledgerProposal_eq hd hs hV _, hadd₁, hadd₂,
    Vars.handled_defund (by decide) (by decide) (Vars.Later.refl _ _).sameFor,
    Vars.handled_defund (by decide) (by decide) (Vars.Later.refl _ _).sameFor, by decide⟩

end Nitro
