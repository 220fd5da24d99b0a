import Nitro.Lib.ReplicatedLog
import Nitro.Consensus.Steps

/-!
# Agreement of the two views of a ledger

Two clients run the same ledger, one as leader and one as follower, over a network that drops,
delays, duplicates and reorders their messages and may add messages of its own, as long as it does
not forge signatures.

* `Sys`, `Action`, `Sys.step`    the two channels, the messages ever sent, and what the keys signed;
* `Sys.Admissible`               what the network may deliver;
* `Agrees`                       **the system simulates a replicated log** (`Nitro.Lib.ReplicatedLog`)
                                 of `Vars`: each channel stands at its position, each queue spells out
                                 the entries after it, and every message in flight is an entry;
* `Agrees.step`                  the simulation, action by action;
* `ledger_agreement`             what it gives for the two channels.
-/

set_option linter.unusedSectionVars false

namespace Nitro
open Go FinMap Runs ReplicatedLog ConsensusChannel

/-! ## the system -/

/-- both channels, the messages sent so far, and the `Vars` on which each key has been used -/
structure Sys where
  leader : ConsensusChannel
  follower : ConsensusChannel
  toFollower : List SignedProposal
  toLeader : List SignedProposal
  signedByLeader : List Vars
  signedByFollower : List Vars

def Sys.init (leader follower : ConsensusChannel) : Sys where
  leader := leader
  follower := follower
  toFollower := []
  toLeader := []
  signedByLeader := [leader.current.vars]
  signedByFollower := [follower.current.vars]

inductive Action where
  /-- the leader calls `Propose` -/
  | propose (p : Proposal) (sk : Bytes)
  /-- the leader sends its whole queue -/
  | send
  /-- the network hands a message to the follower's `Receive` -/
  | deliverToFollower (sp : SignedProposal)
  /-- the follower calls `SignNextProposal` and returns what it signed -/
  | signNext (expected : Proposal) (sk : Bytes)
  /-- the network hands a message to the leader's `Receive` -/
  | deliverToLeader (sp : SignedProposal)

namespace Sys

/-- a successful `Propose` signs the latest proposed `Vars` that it leaves behind -/
def step (cr : Crypto) (s : Sys) : Action → Sys
  | .propose p sk =>
    match ConsensusChannel.propose cr p sk s.leader with
    | .ok _ c =>
      { s with leader := c,
               signedByLeader := c.latestProposedVars.toOption.toList ++ s.signedByLeader }
    | .error _ c => { s with leader := c }
  | .send => { s with toFollower := s.leader.proposalQueue ++ s.toFollower }
  | .deliverToFollower sp => { s with follower := (receive cr sp).after s.follower }
  | .signNext expected sk =>
    match ConsensusChannel.signNextProposal cr expected sk s.follower with
    | .ok signed c =>
      { s with follower := c, toLeader := signed :: s.toLeader,
               signedByFollower := c.current.vars :: s.signedByFollower }
    | .error _ c => { s with follower := c }
  | .deliverToLeader sp => { s with leader := (receive cr sp).after s.leader }

/-- a message was sent before, or its signature is on nothing but what the key has signed -/
def Deliverable (cr : Crypto) (fp : FixedPart) (signer : Nat) (sent : List SignedProposal)
    (signed : List Vars) (sp : SignedProposal) : Prop :=
  sp ∈ sent ∨ ∀ v a, fp.participants[signer]? = some a →
    (v.asState fp).recoverSigner cr sp.signature = .ok a → v ∈ signed

/-- the network does not forge, and the next turn number is below `2^64` -/
def Admissible (cr : Crypto) (s : Sys) (a : Action) : Prop :=
  (∀ latest, s.leader.latestProposedVars = .ok latest → latest.turnNum.toNat < 2 ^ 64 - 1) ∧
  match a with
  | .deliverToFollower sp =>
    Deliverable cr s.follower.fp leaderIndex s.toFollower s.signedByLeader sp
  | .deliverToLeader sp =>
    Deliverable cr s.leader.fp followerIndex s.toLeader s.signedByFollower sp
  | _ => True

end Sys

/-! ## proposals as steps of the log -/

/-- the proposal leads from entry `k` to the next one, whose turn number it carries -/
def LogStep (log : List Vars) (k : Nat) (sp : SignedProposal) : Prop :=
  ∃ v v', log[k]? = some v ∧ log[k + 1]? = some v' ∧ v.Step sp.proposal v' ∧
    sp.turnNum = v'.turnNum

/-- the queue of a channel that stands at `i` spells out the entries after `i` -/
def Tracks (log : List Vars) (i : Nat) (q : List SignedProposal) : Prop :=
  ∀ n sp, q[n]? = some sp → LogStep log (i + n) sp

theorem getElem?_append_of_some {log : List Vars} {k : Nat} {v : Vars} (h : log[k]? = some v)
    (l : List Vars) : (log ++ l)[k]? = some v := by
  obtain ⟨hlt, rfl⟩ := List.getElem?_eq_some_iff.1 h
  rw [List.getElem?_append_left hlt, List.getElem?_eq_getElem hlt]

theorem LogStep.append {log : List Vars} {k : Nat} {sp : SignedProposal} (h : LogStep log k sp)
    (l : List Vars) : LogStep (log ++ l) k sp := by
  obtain ⟨v, v', hv, hv', hstep, ht⟩ := h
  exact ⟨v, v', getElem?_append_of_some hv l, getElem?_append_of_some hv' l, hstep, ht⟩

namespace Tracks
variable {log : List Vars} {i : Nat} {q : List SignedProposal}

theorem append (h : Tracks log i q) (l : List Vars) : Tracks (log ++ l) i q :=
  fun n sp hn => (h n sp hn).append l

theorem snoc (h : Tracks log i q) {sp : SignedProposal} (hs : LogStep log (i + q.length) sp) :
    Tracks log i (q ++ [sp]) := by
  intro n p hn
  by_cases hlt : n < q.length
  · rw [List.getElem?_append_left hlt] at hn
    exact h n p hn
  · have hlen : n < (q ++ [sp]).length := (List.getElem?_eq_some_iff.1 hn).1
    rw [List.length_append, List.length_singleton] at hlen
    obtain rfl : n = q.length := by omega
    rw [List.getElem?_concat_length, Option.some.injEq] at hn
    subst hn
    exact hs

theorem drop {q₁ q₂ : List SignedProposal} (h : Tracks log i (q₁ ++ q₂)) :
    Tracks log (i + q₁.length) q₂ := by
  intro n sp hn
  have := h (q₁.length + n) sp (by rw [List.getElem?_append_right (by omega)]; simpa using hn)
  rwa [← Nat.add_assoc] at this

theorem head {sp : SignedProposal} (h : Tracks log i (sp :: q)) : LogStep log i sp :=
  h 0 sp rfl

theorem tail {sp : SignedProposal} (h : Tracks log i (sp :: q)) : Tracks log (i + 1) q := by
  have h' : Tracks log i ([sp] ++ q) := h
  exact h'.drop

theorem handleQueue {v : Vars} (h : Tracks log i q) (hv : log[i]? = some v) :
    ∃ w, v.handleQueue q = .ok w ∧ log[i + q.length]? = some w := by
  induction q generalizing i v with
  | nil => exact ⟨v, rfl, hv⟩
  | cons sp q ih =>
    obtain ⟨v₁, v', hv₁, hv', hstep, -⟩ := h.head
    obtain rfl : v₁ = v := Option.some.inj (hv₁.symm.trans hv)
    obtain ⟨w, hw, hpos⟩ := ih h.tail hv'
    refine ⟨w, (Vars.handleQueue_cons hstep q).trans hw, ?_⟩
    rw [List.length_cons, ← hpos]
    congr 1
    omega

end Tracks

/-! ## the simulation relation -/

structure Agrees (start : Nat) (s : Sys) (A : Log Vars) : Prop where
  leaderRole : s.leader.myIndex = leaderIndex
  followerRole : s.follower.myIndex = followerIndex
  turns : ∀ k v, A.entries[k]? = some v → v.turnNum.toNat = start + k
  leaderAt : A.entries[A.leader]? = some s.leader.current.vars
  leaderQueue : Tracks A.entries A.leader s.leader.proposalQueue
  leaderEnd : A.leader + s.leader.proposalQueue.length + 1 = A.entries.length
  followerAt : A.entries[A.follower]? = some s.follower.current.vars
  followerQueue : Tracks A.entries A.follower s.follower.proposalQueue
  sent : ∀ sp ∈ s.toFollower, ∃ k, LogStep A.entries k sp
  returned : ∀ sp ∈ s.toLeader, ∃ k v, k ≤ A.follower ∧ A.entries[k]? = some v ∧
    sp.turnNum = v.turnNum
  leaderSigned : ∀ v ∈ s.signedByLeader, v ∈ A.entries
  followerSigned : ∀ v ∈ s.signedByFollower, ∃ k ≤ A.follower, A.entries[k]? = some v

namespace Agrees
variable {cr : Crypto} {start : Nat} {s : Sys} {A : Log Vars}

theorem latest (h : Agrees start s A) :
    ∃ v, s.leader.latestProposedVars = .ok v ∧ A.entries[A.entries.length - 1]? = some v := by
  obtain ⟨w, hw, hpos⟩ := h.leaderQueue.handleQueue h.leaderAt
  refine ⟨w, hw, ?_⟩
  rw [← h.leaderEnd]
  exact hpos

theorem follower_latest (h : Agrees start s A) :
    ∃ v, s.follower.latestProposedVars = .ok v ∧
      A.entries[A.follower + s.follower.proposalQueue.length]? = some v :=
  h.followerQueue.handleQueue h.followerAt

theorem index_eq (h : Agrees start s A) {k m : Nat} {v w : Vars} (hv : A.entries[k]? = some v)
    (hw : A.entries[m]? = some w) (ht : v.turnNum = w.turnNum) : k = m := by
  have h₁ := h.turns k v hv
  have h₂ := h.turns m w hw
  rw [ht] at h₁
  omega

theorem turnNum_step (h : Agrees start s A) {k : Nat} {v v' : Vars} {p : Proposal}
    (hv : A.entries[k]? = some v) (hlt : v.turnNum.toNat < 2 ^ 64 - 1) (hstep : v.Step p v') :
    v'.turnNum.toNat = start + (k + 1) := by
  have ht := h.turns k v hv
  rw [hstep.turnNum, UInt64.toNat_add]
  show (v.turnNum.toNat + 1) % 2 ^ 64 = _
  rw [Nat.mod_eq_of_lt (by omega)]
  omega

theorem lt_of_latest (h : Agrees start s A)
    (hb : ∀ latest, s.leader.latestProposedVars = .ok latest → latest.turnNum.toNat < 2 ^ 64 - 1)
    {k : Nat} {v : Vars} (hv : A.entries[k]? = some v) : v.turnNum.toNat < 2 ^ 64 - 1 := by
  obtain ⟨w, hw, hpos⟩ := h.latest
  have hlast := h.turns _ w hpos
  have hk := h.turns k v hv
  have hlt := (List.getElem?_eq_some_iff.1 hv).1
  have := hb w hw
  omega

/-! ## the actions of the leader -/

theorem propose (h : Agrees start s A)
    (hb : ∀ latest, s.leader.latestProposedVars = .ok latest → latest.turnNum.toNat < 2 ^ 64 - 1)
    (p : Proposal) (sk : Bytes) : ∃ B, Step A B ∧ Agrees start (s.step cr (.propose p sk)) B := by
  rcases propose_cases cr p sk s.leader with ⟨sp, hsp, hrun⟩ | ⟨e, -, hrun⟩
  · obtain ⟨latest, latest', a, -, -, hl, hstep, -, -, -, rfl, ht⟩ := signedProposal_ok hsp
    obtain ⟨w, hw, hend⟩ := h.latest
    obtain rfl : latest = w := Except.ok.inj (hl.symm.trans hw)
    have hlog : LogStep (A.entries ++ [latest']) (A.leader + s.leader.proposalQueue.length) sp := by
      have hpos : A.leader + s.leader.proposalQueue.length = A.entries.length - 1 := by
        have := h.leaderEnd
        omega
      have hpos' : A.leader + s.leader.proposalQueue.length + 1 = A.entries.length := h.leaderEnd
      refine ⟨latest, latest', ?_, ?_, hstep, ht⟩
      · rw [hpos]
        exact getElem?_append_of_some hend _
      · rw [hpos', List.getElem?_concat_length]
    have hl' : ({ s.leader with proposalQueue := s.leader.proposalQueue ++ [sp] }
        : ConsensusChannel).latestProposedVars = .ok latest' := Vars.handleQueue_snoc hl hstep
    have hs : s.step cr (.propose sp.proposal sk) =
        { s with leader := { s.leader with proposalQueue := s.leader.proposalQueue ++ [sp] },
                 signedByLeader := latest' :: s.signedByLeader } := by
      simp only [Sys.step, hrun, hl']
      rfl
    refine ⟨A.append latest', .append A latest', ?_⟩
    rw [hs]
    refine
      { leaderRole := h.leaderRole
        followerRole := h.followerRole
        turns := ?_
        leaderAt := getElem?_append_of_some h.leaderAt _
        leaderQueue := (h.leaderQueue.append [latest']).snoc hlog
        leaderEnd := ?_
        followerAt := getElem?_append_of_some h.followerAt _
        followerQueue := h.followerQueue.append [latest']
        sent := fun sp hsp => ?_
        returned := fun sp hsp => ?_
        leaderSigned := fun v hv => ?_
        followerSigned := fun v hv => ?_ }
    · intro k v hv
      have hv : (A.entries ++ [latest'])[k]? = some v := hv
      by_cases hlt : k < A.entries.length
      · rw [List.getElem?_append_left hlt] at hv
        exact h.turns k v hv
      · have hlen := (List.getElem?_eq_some_iff.1 hv).1
        rw [List.length_append, List.length_singleton] at hlen
        obtain rfl : k = A.entries.length := by omega
        rw [List.getElem?_concat_length, Option.some.injEq] at hv
        subst hv
        have := h.turnNum_step hend (hb latest hl) hstep
        have := A.follower_lt
        omega
    · show A.leader + (s.leader.proposalQueue ++ [sp]).length + 1 = (A.entries ++ [latest']).length
      rw [List.length_append, List.length_append, List.length_singleton, List.length_singleton,
        ← h.leaderEnd]
      omega
    · obtain ⟨k, hk⟩ := h.sent sp hsp
      exact ⟨k, hk.append _⟩
    · obtain ⟨k, v, hk, hv, hturn⟩ := h.returned sp hsp
      exact ⟨k, v, hk, getElem?_append_of_some hv _, hturn⟩
    · rcases List.mem_cons.1 hv with rfl | hv
      · exact List.mem_append_right _ (List.mem_singleton.2 rfl)
      · exact List.mem_append_left _ (h.leaderSigned v hv)
    · obtain ⟨k, hk, hv'⟩ := h.followerSigned v hv
      exact ⟨k, hk, getElem?_append_of_some hv' _⟩
  · have hs : s.step cr (.propose p sk) = s := by
      simp only [Sys.step, hrun]
    rw [hs]
    exact ⟨A, .stay A, h⟩

theorem send (h : Agrees start s A) : Agrees start (s.step cr .send) A := by
  refine { h with sent := fun sp hsp => ?_ }
  rcases List.mem_append.1 hsp with hq | hsp
  · obtain ⟨n, hn⟩ := List.getElem?_of_mem hq
    exact ⟨_, h.leaderQueue n sp hn⟩
  · exact h.sent sp hsp

/-- a countersignature moves the leader to a position that the follower has confirmed -/
theorem deliverToLeader (h : Agrees start s A) {sp : SignedProposal}
    (hd : Sys.Deliverable cr s.leader.fp followerIndex s.toLeader s.signedByFollower sp) :
    ∃ B, Step A B ∧ Agrees start (s.step cr (.deliverToLeader sp)) B := by
  have hs : s.step cr (.deliverToLeader sp) =
      { s with leader := (leaderReceive cr sp).after s.leader } := by
    simp only [Sys.step, Meth.after, receive_leader h.leaderRole]
  rw [hs]
  rcases leaderReceive_cases cr sp s.leader with ⟨sv, rest, -, hloop, hrun⟩ | hrun | ⟨e, hrun⟩
  · obtain ⟨done, last, w, w', a, hq, hdone, hstep, ht, ha, hsig, rfl⟩ := leaderLoop_ok hloop
    have htr := h.leaderQueue
    rw [hq] at htr
    have hdone' : Tracks A.entries A.leader done := fun n p hn =>
      htr n p (by
        rw [List.getElem?_append_left (List.getElem?_eq_some_iff.1 hn).1]
        exact hn)
    obtain ⟨w₁, hw₁, hpos⟩ := hdone'.handleQueue h.leaderAt
    obtain rfl : w₁ = w := Except.ok.inj (hw₁.symm.trans hdone)
    obtain ⟨v, v', hv, hv', hstep', -⟩ := htr.drop.head
    obtain rfl : v = w₁ := Option.some.inj (hv.symm.trans hpos)
    obtain rfl := hstep'.det hstep
    -- the follower stands at or after the position of the countersigned proposal
    have hle : A.leader + done.length + 1 ≤ A.follower := by
      rcases hd with hsent | hunforged
      · obtain ⟨k, u, hk, hu, hturn⟩ := h.returned sp hsent
        have := h.index_eq hu hv' (hturn.symm.trans ht.symm)
        omega
      · obtain ⟨k, hk, hu⟩ := h.followerSigned _ (hunforged _ a ha hsig)
        have := h.index_eq hu hv' rfl
        omega
    rw [Meth.after_ok hrun]
    refine ⟨A.catchUp _ hle, .catchUp A _ hle, ?_⟩
    refine { h with leaderRole := h.leaderRole, leaderAt := hv', leaderQueue := htr.drop.tail,
                    leaderEnd := ?_ }
    have hend := h.leaderEnd
    rw [hq, List.length_append, List.length_cons] at hend
    show A.leader + done.length + 1 + rest.length + 1 = A.entries.length
    omega
  · rw [Meth.after_ok hrun]
    exact ⟨A, .stay A, h⟩
  · rw [Meth.after_error hrun]
    exact ⟨A, .stay A, h⟩

/-! ## the actions of the follower -/

/-- the follower queues only what is the next entry of the log -/
theorem deliverToFollower (h : Agrees start s A)
    (hb : ∀ latest, s.leader.latestProposedVars = .ok latest → latest.turnNum.toNat < 2 ^ 64 - 1)
    {sp : SignedProposal}
    (hd : Sys.Deliverable cr s.follower.fp leaderIndex s.toFollower s.signedByLeader sp) :
    Agrees start (s.step cr (.deliverToFollower sp)) A := by
  have hs : s.step cr (.deliverToFollower sp) =
      { s with follower := (followerReceive cr sp).after s.follower } := by
    simp only [Sys.step, Meth.after, receive_follower h.followerRole]
  rw [hs]
  rcases followerReceive_cases cr sp s.follower with ⟨hsp, hrun⟩ | ⟨e, hrun⟩
  · obtain ⟨latest, latest', a, -, -, hl, hstep, ha, hsig, ht⟩ := followerChecks_ok hsp
    obtain ⟨w, hw, hpos⟩ := h.follower_latest
    obtain rfl : latest = w := Except.ok.inj (hl.symm.trans hw)
    have hturn := h.turnNum_step hpos (h.lt_of_latest hb hpos) hstep
    have hlog : LogStep A.entries (A.follower + s.follower.proposalQueue.length) sp := by
      rcases hd with hsent | hunforged
      · obtain ⟨k, v, v', hv, hv', hstep', ht'⟩ := h.sent sp hsent
        have hk := h.turns _ v' hv'
        rw [← ht', ht, hturn] at hk
        obtain rfl : k = A.follower + s.follower.proposalQueue.length := by omega
        exact ⟨v, v', hv, hv', hstep', ht'⟩
      · obtain ⟨m, hm⟩ := List.getElem?_of_mem (h.leaderSigned _ (hunforged _ a ha hsig))
        have hk := h.turns m latest' hm
        obtain rfl : m = A.follower + s.follower.proposalQueue.length + 1 := by omega
        exact ⟨latest, latest', hpos, hm, hstep, ht⟩
    rw [Meth.after_ok hrun]
    exact { h with followerQueue := h.followerQueue.snoc hlog }
  · rw [Meth.after_error hrun]
    exact h

theorem signNext (h : Agrees start s A) (expected : Proposal) (sk : Bytes) :
    ∃ B, Step A B ∧ Agrees start (s.step cr (.signNext expected sk)) B := by
  rcases signNextProposal_cases cr expected sk s.follower with
    ⟨sv, rest, signed, hn, hrun⟩ | ⟨e, -, hrun⟩
  · obtain ⟨head, v', a, -, hq, -, hstep, -, -, -, rfl, -, ht⟩ := nextConsensus_ok hn
    have hs : s.step cr (.signNext expected sk) =
        { s with follower := { s.follower with current := ⟨v', (head.signature, signed.signature)⟩,
                                               proposalQueue := rest },
                 toLeader := signed :: s.toLeader,
                 signedByFollower := v' :: s.signedByFollower } := by
      simp only [Sys.step, hrun]
    have htr := h.followerQueue
    rw [hq] at htr
    obtain ⟨v, v₁, hv, hv₁, hstep', -⟩ := htr.head
    obtain rfl : v = s.follower.current.vars := Option.some.inj (hv.symm.trans h.followerAt)
    obtain rfl := hstep'.det hstep
    have hlt : A.follower + 1 < A.entries.length := (List.getElem?_eq_some_iff.1 hv₁).1
    refine ⟨A.confirm hlt, .confirm A hlt, ?_⟩
    rw [hs]
    refine { h with followerRole := h.followerRole, followerAt := hv₁, followerQueue := htr.tail,
                    returned := fun sp hsp => ?_, followerSigned := fun v hv => ?_ }
    · rcases List.mem_cons.1 hsp with rfl | hsp
      · exact ⟨A.follower + 1, v₁, Nat.le_refl _, hv₁, ht⟩
      · obtain ⟨k, u, hk, hu, hturn⟩ := h.returned sp hsp
        exact ⟨k, u, Nat.le_succ_of_le hk, hu, hturn⟩
    · rcases List.mem_cons.1 hv with rfl | hv
      · exact ⟨A.follower + 1, Nat.le_refl _, hv₁⟩
      · obtain ⟨k, hk, hu⟩ := h.followerSigned v hv
        exact ⟨k, Nat.le_succ_of_le hk, hu⟩
  · have hs : s.step cr (.signNext expected sk) = s := by
      simp only [Sys.step, hrun]
    rw [hs]
    exact ⟨A, .stay A, h⟩

/-- **every action is a transition of the log** -/
theorem step (s : Sys) (a : Action) (A : Log Vars) (h : Agrees start s A)
    (hadm : s.Admissible cr a) : ∃ B, Step A B ∧ Agrees start (s.step cr a) B := by
  obtain ⟨hb, hadm⟩ := hadm
  cases a with
  | propose p sk => exact h.propose hb p sk
  | send => exact ⟨A, .stay A, h.send⟩
  | deliverToFollower sp => exact ⟨A, .stay A, h.deliverToFollower hb hadm⟩
  | signNext expected sk => exact h.signNext expected sk
  | deliverToLeader sp => exact h.deliverToLeader hadm

end Agrees

/-! ## agreement -/

/-- the log of a new ledger: the `Vars` it was created with -/
def firstLog (v : Vars) : Log Vars where
  entries := [v]
  leader := 0
  follower := 0
  leader_le := Nat.le_refl 0
  follower_lt := Nat.zero_lt_one

theorem agrees_init {cr : Crypto} {fp : FixedPart} {turn : UInt64} {o : LedgerOutcome}
    {sigs : Signature × Signature} {leader follower : ConsensusChannel}
    (hl : newConsensusChannel cr fp leaderIndex turn o sigs = .ok leader)
    (hf : newConsensusChannel cr fp followerIndex turn o sigs = .ok follower) :
    Agrees turn.toNat (Sys.init leader follower) (firstLog ⟨turn, o⟩) := by
  obtain ⟨hli, -, -, hlq, hlc, -⟩ := newConsensusChannel_ok hl
  obtain ⟨hfi, -, -, hfq, hfc, -⟩ := newConsensusChannel_ok hf
  have hlv : leader.current.vars = ⟨turn, o⟩ := by rw [hlc]
  have hfv : follower.current.vars = ⟨turn, o⟩ := by rw [hfc]
  refine
    { leaderRole := hli
      followerRole := hfi
      turns := fun k v hv => ?_
      leaderAt := ?_
      leaderQueue := fun n sp hn => ?_
      leaderEnd := ?_
      followerAt := ?_
      followerQueue := fun n sp hn => ?_
      sent := fun sp hsp => ?_
      returned := fun sp hsp => ?_
      leaderSigned := fun v hv => ?_
      followerSigned := fun v hv => ?_ }
  · have hlt : k < 1 := (List.getElem?_eq_some_iff.1 hv).1
    obtain rfl : k = 0 := by omega
    cases hv
    rfl
  · exact congrArg some hlv.symm
  · have hn : leader.proposalQueue[n]? = some sp := hn
    rw [hlq] at hn
    simp at hn
  · show 0 + leader.proposalQueue.length + 1 = 1
    rw [hlq]
    rfl
  · exact congrArg some hfv.symm
  · have hn : follower.proposalQueue[n]? = some sp := hn
    rw [hfq] at hn
    simp at hn
  · cases hsp
  · cases hsp
  · rw [List.mem_singleton.1 hv, hlv]
    exact List.mem_singleton.2 rfl
  · rw [List.mem_singleton.1 hv, hfv]
    exact ⟨0, Nat.le_refl 0, rfl⟩

/-- **agreement of the two views of a ledger**: in every reachable state the consensus of the leader
is not ahead of the follower's, which is not ahead of the leader's latest proposal; the `Vars` of the
leader are those that the follower held at that turn; and equal turns mean equal `Vars` -/
theorem ledger_agreement {cr : Crypto} {fp : FixedPart} {turn : UInt64} {o : LedgerOutcome}
    {sigs : Signature × Signature} {leader follower : ConsensusChannel} {actions : List Action}
    (hl : newConsensusChannel cr fp leaderIndex turn o sigs = .ok leader)
    (hf : newConsensusChannel cr fp followerIndex turn o sigs = .ok follower)
    (hadm : Along (Sys.step cr) (Sys.Admissible cr) (Sys.init leader follower) actions)
    {s : Sys} (hs : run (Sys.step cr) (Sys.init leader follower) actions = s) :
    (∃ latest, s.leader.latestProposedVars = .ok latest ∧
      s.leader.current.vars.turnNum ≤ s.follower.current.vars.turnNum ∧
      s.follower.current.vars.turnNum ≤ latest.turnNum) ∧
    (∃ k ≤ actions.length,
      (run (Sys.step cr) (Sys.init leader follower) (actions.take k)).follower.current.vars =
        s.leader.current.vars) ∧
    (∀ k, (run (Sys.step cr) (Sys.init leader follower)
        (actions.take k)).follower.current.vars.turnNum = s.leader.current.vars.turnNum →
      (run (Sys.step cr) (Sys.init leader follower) (actions.take k)).follower.current.vars =
        s.leader.current.vars) ∧
    (s.leader.current.vars.turnNum = s.follower.current.vars.turnNum →
      s.leader.current.vars = s.follower.current.vars) := by
  obtain ⟨A, h0, hpath, hrel⟩ := hadm.simulate Agrees.step (agrees_init hl hf)
  have hend := hrel actions.length (Nat.le_refl _)
  rw [List.take_length, hs] at hend
  have hprev : ∀ k ≤ actions.length, (A actions.length).entries[(A k).follower]? =
      some (run (Sys.step cr) (Sys.init leader follower) (actions.take k)).follower.current.vars :=
    fun k hk => path_entry hpath hk (hrel k hk).followerAt
  have hsame : ∀ k ≤ actions.length, (run (Sys.step cr) (Sys.init leader follower)
      (actions.take k)).follower.current.vars.turnNum = s.leader.current.vars.turnNum →
      (run (Sys.step cr) (Sys.init leader follower) (actions.take k)).follower.current.vars =
        s.leader.current.vars := by
    intro k hk ht
    have hidx := hend.index_eq (hprev k hk) hend.leaderAt ht
    have he := hprev k hk
    rw [hidx, hend.leaderAt] at he
    exact (Option.some.inj he).symm
  refine ⟨?_, ?_, fun k ht => ?_, fun ht => ?_⟩
  · obtain ⟨latest, hlatest, hpos⟩ := hend.latest
    have h₁ := hend.turns _ _ hend.leaderAt
    have h₂ := hend.turns _ _ hend.followerAt
    have h₃ := hend.turns _ _ hpos
    have hle := (A actions.length).leader_le
    have hlt := (A actions.length).follower_lt
    refine ⟨latest, hlatest, ?_, ?_⟩
    · rw [UInt64.le_iff_toNat_le]
      omega
    · rw [UInt64.le_iff_toNat_le]
      omega
  · obtain ⟨k, hk, hpos⟩ := leader_entry_visited hpath (by rw [h0]; rfl)
    refine ⟨k, hk, ?_⟩
    have he := hprev k hk
    rw [hpos, hend.leaderAt] at he
    exact (Option.some.inj he).symm
  · by_cases hk : k ≤ actions.length
    · exact hsame k hk ht
    · have htake : actions.take k = actions.take actions.length := by
        rw [List.take_length, List.take_of_length_le (by omega)]
      rw [htake] at ht ⊢
      exact hsame _ (Nat.le_refl _) ht
  · have he := hend.leaderAt
    rw [hend.index_eq he hend.followerAt ht, hend.followerAt] at he
    exact (Option.some.inj he).symm

namespace Sample

/-- the first proposal of the sample ledger, signed by the participant with address `n` -/
def firstProposal (n : Nat) : SignedProposal :=
  ⟨sig (start.funded ⟨5, 3, 1, 2⟩ 5) n, addOf 5, 1⟩

/-- the proposal travels to the follower and back -/
def exchange : List Action :=
  [.propose (addOf 5) (key 1), .send, .deliverToFollower (firstProposal 1),
    .signNext (addOf 5) (key 2), .deliverToLeader (firstProposal 2)]

abbrev system : Sys := Sys.init (ledger leaderIndex) (ledger followerIndex)

theorem turnNum_lt {s : Sys} (h : s.leader.latestProposedVars.toOption.all
    (fun v => decide (v.turnNum.toNat < 2 ^ 64 - 1)) = true) (latest : Vars)
    (hl : s.leader.latestProposedVars = .ok latest) : latest.turnNum.toNat < 2 ^ 64 - 1 := by
  rw [hl] at h
  exact of_decide_eq_true h

theorem exchange_admissible :
    Along (Sys.step Crypto.plain) (Sys.Admissible Crypto.plain) system exchange := by
  refine ⟨⟨turnNum_lt (by decide +kernel), trivial⟩, ⟨turnNum_lt (by decide +kernel), trivial⟩,
    ⟨turnNum_lt (by decide +kernel), .inl (by decide +kernel)⟩,
    ⟨turnNum_lt (by decide +kernel), trivial⟩,
    ⟨turnNum_lt (by decide +kernel), .inl (by decide +kernel)⟩, trivial⟩

end Sample

theorem ledger_agreement_exchange :
    (run (Sys.step Crypto.plain) Sample.system Sample.exchange).leader.current.vars =
      (run (Sys.step Crypto.plain) Sample.system Sample.exchange).follower.current.vars ∧
    (run (Sys.step Crypto.plain) Sample.system Sample.exchange).leader.current.vars.turnNum = 1 := by
  obtain ⟨-, -, -, h⟩ := ledger_agreement
    (s := run (Sys.step Crypto.plain) Sample.system Sample.exchange)
    Sample.new_leader Sample.new_follower Sample.exchange_admissible rfl
  exact ⟨h (by decide +kernel), by decide +kernel⟩

end Nitro
