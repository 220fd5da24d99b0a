import Nitro.Protocols.DepositSafety
import Nitro.Protocols.Serde

/-!
# Traces of direct funding

An objective goes through calls of its methods and through the store, which writes it as JSON and reads
it back.  A trace keeps the objective and the side effects of every `Crank` so far.

* `Event`, `Trace.step`          calls and round trips through the store;
* `reload_eq`                    a round trip gives back the objective;
* `Since`                        what the acts of one `Crank` may have done;
* `Lawful`                       the invariant of a trace, kept by every event;
* `funding_trace`                one deposit and one broadcast of each setup state, when they are due;
* `postfund_funded`              nobody signs the postfund state of an underfunded channel, unless an
                                 asset is listed twice.
-/

set_option linter.unusedSectionVars false

namespace Nitro
open Go FinMap Runs Relation

/-- a signed state of turn `t` is sent -/
def SideEffects.Sends (se : SideEffects) (t : UInt64) : Prop :=
  ∃ m ∈ se.messagesToSend, ∃ p ∈ m.payloads, p.signedState.state.turnNum = t

instance (se : SideEffects) (t : UInt64) : Decidable (se.Sends t) := by
  unfold SideEffects.Sends
  infer_instance

theorem SideEffects.not_sends_empty (t : UInt64) : ¬ SideEffects.empty.Sends t := by
  rintro ⟨m, hm, -⟩
  exact absurd hm List.not_mem_nil

namespace Channel
variable {cr : Crypto} {G : State → Signature → Prop} {c : Channel} {s : State} {i : Nat}
  {t : UInt64}

/-- the record of turn `t` carries a signature that recovers to each participant of `s` -/
def Carries (cr : Crypto) (s : State) (t : UInt64) (c : Channel) : Prop :=
  ∀ j a, s.participants[j]? = some a → ∃ sig,
    (c.signedState t).entries.lookup j = some sig ∧
    (c.signedState t).state.recoverSigner cr sig = .ok a

/-- everybody's entry is there -/
def Filled (s : State) (t : UInt64) (c : Channel) : Prop :=
  ∀ j < s.participants.length, SignedBy t j c

theorem Record.filled {st : State} (h : Record cr G t st c)
    (hall : (c.signedState t).hasAllSignatures = true) : Filled st t c := by
  intro j hj
  obtain ⟨-, sig, hsig, -⟩ := h.complete hall (List.getElem?_eq_getElem hj)
  exact AList.lookup_isSome.1 (by rw [hsig]; rfl)

theorem Record.carries {st : State} (h : Record cr G t st c) (hf : Filled st t c) :
    Carries cr st t c := by
  intro j a hj
  obtain ⟨ss, hl, rfl, hholds, -⟩ := h
  have hss : c.signedState t = ss := by simp [signedState, hl]
  unfold Filled SignedBy at hf
  rw [hss] at hf ⊢
  exact hholds.checked.signed hf hj

theorem Ready.record (h : Ready cr G s i c) (ht : t = preFundTurnNum ∨ t = postFundTurnNum)
    (h0 : s.turnNum = 0) : ∃ st, Record cr G t st c ∧ st.participants = s.participants ∧
      st.turnNum = t := by
  rcases ht with rfl | rfl
  · exact ⟨s.copied, h.pre, rfl, h0⟩
  · exact ⟨s.postfund, h.post, rfl, rfl⟩

theorem Ready.carries (h : Ready cr G s i c) (ht : t = preFundTurnNum ∨ t = postFundTurnNum)
    (h0 : s.turnNum = 0) (hf : Filled s t c) : Carries cr s t c := by
  obtain ⟨st, hrec, hpart, -⟩ := h.record ht h0
  unfold Filled Carries at *
  rw [← hpart] at hf ⊢
  exact hrec.carries hf

end Channel

/-! ## what an outcome allocates -/

theorem Allocations.total_eq {l : Allocations} {n : Int} (h : l.total = .ok n) :
    n = (l.map Allocation.value).sum := by
  induction l generalizing n with
  | nil =>
    cases h
    rfl
  | cons a l ih =>
    obtain ⟨x, hx, h⟩ := Res.bind_eq_ok.1 h
    obtain ⟨y, hy, h⟩ := Res.bind_eq_ok.1 h
    cases h
    rw [BigInt.deref_eq_ok] at hx
    rw [List.map_cons, List.sum_cons, ← ih hy, Allocation.value, hx]
    rfl

/-- the loop keeps the last amount of an asset: all of it, if the earlier ones are zero -/
theorem Exit.amount_fundsBy {e : Exit} {acc funds : Funds}
    (h : Exit.fundsBy Allocations.total e acc = .ok funds)
    (hrepeated : e.Pairwise fun a b => a.asset = b.asset → a.allocated = 0) {asset : Address}
    (hasset : asset ∈ e.map SingleAssetExit.asset) : funds.amount asset = e.allocatedIn asset := by
  induction e generalizing acc with
  | nil => exact absurd hasset List.not_mem_nil
  | cons x e ih =>
    obtain ⟨n, hn, h⟩ := Res.bind_eq_ok.1 h
    obtain ⟨hx, hrest⟩ := List.pairwise_cons.1 hrepeated
    by_cases hlater : asset ∈ e.map SingleAssetExit.asset
    · obtain ⟨y, hy, rfl⟩ := List.mem_map.1 hlater
      rw [ih h hrest hlater]
      by_cases hsame : x.asset = y.asset
      · rw [allocatedIn_cons, if_pos hsame, hx y hy hsame, zero_add]
      · rw [allocatedIn_cons, if_neg hsame, zero_add]
    · rw [List.map_cons, List.mem_cons] at hasset
      obtain rfl := hasset.resolve_right hlater
      have hnone : e.filter (fun y => decide (y.asset = x.asset)) = [] := by
        rw [List.filter_eq_nil_iff]
        intro y hy hsame
        exact hlater (of_decide_eq_true hsame ▸ List.mem_map_of_mem hy)
      have hlookup : funds.lookup x.asset = some n := by
        rw [(Exit.fundsBy_ok h).1 _ hlater, Finmap.lookup_insert]
      rw [Funds.amount_of_lookup hlookup, Allocations.total_eq hn]
      simp [allocatedIn, SingleAssetExit.allocated, hnone]

theorem Exit.amount_totalAllocated {o : Exit} {funds : Funds} (h : o.totalAllocated = .ok funds)
    (hrepeated : o.Pairwise fun a b => a.asset = b.asset → a.allocated = 0) {e : SingleAssetExit}
    (he : e ∈ o) : funds.amount e.asset = o.allocatedIn e.asset :=
  Exit.amount_fundsBy h hrepeated (List.mem_map_of_mem he)

namespace DirectFund
open Channel (Setup Ready SignedBy Filled Carries OwnKey)

/-- signatures may be on anything -/
abbrev anySig : State → Signature → Prop := fun _ _ => True

namespace Objective
variable {cr : Crypto} {s : State} {i : Nat} {sk : Bytes} {o o' : Objective}

/-! ## the acts of one `Crank` -/

/-- what may have happened since `o`, which is a copy, in one `Crank` -/
structure Since (cr : Crypto) (s : State) (i : Nat) (o : Objective) (x : Objective × SideEffects) :
    Prop where
  ready : Ready cr anySig s i x.1.c
  stays : ∀ t j, SignedBy t j o.c → SignedBy t j x.1.c
  submitted : o.transactionSubmitted = true → x.1.transactionSubmitted = true
  submits : x.2.transactionsToSubmit = [] ∨ o.transactionSubmitted = false ∧
    x.1.transactionSubmitted = true ∧ x.2.transactionsToSubmit.length = 1 ∧
    Filled s preFundTurnNum x.1.c
  sends : ∀ t, x.2.Sends t → ¬ SignedBy t i o.c
  funded : (∃ j, SignedBy postFundTurnNum j x.1.c ∧ ¬ SignedBy postFundTurnNum j o.c) ∨
    x.2.Sends postFundTurnNum → o.fundingComplete = true
  completed : x.1.status = .completed → o.status = .completed ∨ Filled s postFundTurnNum x.1.c

theorem Since.refl (h : Ready cr anySig s i o.c) : Since cr s i o (o, .empty) where
  ready := h
  stays _ _ hj := hj
  submitted e := e
  submits := .inl rfl
  sends t ht := absurd ht (SideEffects.not_sends_empty t)
  funded := by
    rintro (⟨j, hj, hnot⟩ | hsends)
    · exact absurd hj hnot
    · exact absurd hsends (SideEffects.not_sends_empty _)
  completed e := .inl e

theorem fundingComplete_congr (hsame : SameTargets o o')
    (hheld : o'.c.onChainFunding = o.c.onChainFunding) :
    o'.fundingComplete = o.fundingComplete := by
  unfold fundingComplete
  rw [hsame.full, hheld]

theorem Signable.turn {t : UInt64} (h : o.Signable t) :
    t = preFundTurnNum ∨ t = postFundTurnNum := by
  rcases h.1 with ht | ⟨ht, -⟩
  · exact .inl ht
  · exact .inr ht

theorem Signable.not_signedBy {t : UInt64} (h : o.Signable t) (hready : Ready cr anySig s i o.c) :
    ¬ SignedBy t i o.c := by
  rw [← hready.myIndex, ← Channel.hasSignature_iff, h.2]
  exact Bool.false_ne_true

theorem Signable.turnNum {t : UInt64} (h : o.Signable t) (hready : Ready cr anySig s i o.c)
    (h0 : s.turnNum = 0) : (o.c.signedState t).state.turnNum = t := by
  obtain ⟨st, hrec, -, hturn⟩ := hready.record h.turn h0
  rw [hrec.state_eq, hturn]

theorem Signable.funded {t : UInt64} (h : o.Signable t) (hready : Ready cr anySig s i o.c)
    (h0 : s.turnNum = 0) {j : Nat}
    (hj : SignedBy postFundTurnNum j
      ((Channel.signAndAddState cr (o.c.signedState t).state sk).after o.c))
    (hnot : ¬ SignedBy postFundTurnNum j o.c) : o.fundingComplete = true := by
  rcases h.1 with rfl | ⟨-, hfunded⟩
  · have hne : postFundTurnNum ≠ (o.c.signedState preFundTurnNum).state.turnNum := by
      rw [h.turnNum hready h0]
      decide
    unfold SignedBy at hj
    rw [Channel.signedState_signAndAddState hne] at hj
    exact absurd hj hnot
  · exact hfunded

theorem sends_signed {se : SideEffects} {st : State} {t : UInt64} {ss : SignedState} {c c' : Channel}
    (hsign : Channel.signAndAddState cr st sk c = .ok ss c')
    (h : (se.send (createSignedStateMessages o.id ss o.c.myIndex)).Sends t) :
    se.Sends t ∨ t = st.turnNum := by
  obtain ⟨m, hm, p, hp, rfl⟩ := h
  rcases List.mem_append.1 hm with hm | hm
  · exact .inl ⟨m, hm, p, hp, rfl⟩
  · rw [payload_of_createSignedStateMessages hm hp, Channel.signAndAddState_ok hsign]
    exact .inr rfl

theorem Since.signed {x : Objective × SideEffects} {t : UInt64} {c : Channel} {se : SideEffects}
    (h : Since cr s i o x) (h0 : s.turnNum = 0) (ht : x.1.Signable t)
    (hfund : x.1.fundingComplete = o.fundingComplete)
    (hc : (Channel.signAndAddState cr (x.1.c.signedState t).state sk).after x.1.c = c)
    (htx : se.transactionsToSubmit = [] ∨ se.transactionsToSubmit = x.2.transactionsToSubmit)
    (hsends : ∀ t', se.Sends t' → x.2.Sends t' ∨ t' = t) :
    Since cr s i o ({ x.1 with c := c }, se) := by
  have hstays : ∀ t j, SignedBy t j x.1.c → SignedBy t j c := by
    intro t j hj
    rw [← hc]
    exact hj.signAndAddState
  refine ⟨?_, fun t j hj => hstays t j (h.stays t j hj), h.submitted, ?_, ?_, ?_, ?_⟩
  · show Ready cr anySig s i c
    rw [← hc]
    exact h.ready.signAndAddState fun _ _ => trivial
  · show se.transactionsToSubmit = [] ∨ _
    rcases htx with hnone | hsame
    · exact .inl hnone
    · rw [hsame]
      rcases h.submits with hnone | ⟨hfirst, hnow, hlen, hfilled⟩
      · exact .inl hnone
      · exact .inr ⟨hfirst, hnow, hlen, fun j hj => hstays _ j (hfilled j hj)⟩
  · intro t' ht'
    rcases hsends t' ht' with hold | rfl
    · exact h.sends t' hold
    · exact fun hj => ht.not_signedBy h.ready (h.stays _ _ hj)
  · rintro (⟨j, hj, hnot⟩ | hnew)
    · by_cases hx : SignedBy postFundTurnNum j x.1.c
      · exact h.funded (.inl ⟨j, hx, hnot⟩)
      · have hj : SignedBy postFundTurnNum j
            ((Channel.signAndAddState cr (x.1.c.signedState t).state sk).after x.1.c) := by
          rw [hc]
          exact hj
        rw [← hfund]
        exact ht.funded h.ready h0 hj hx
    · rcases hsends _ hnew with hold | rfl
      · exact h.funded (.inr hold)
      · rw [← hfund]
        rcases ht.1 with he | ⟨-, hfunded⟩
        · exact absurd he (by decide)
        · exact hfunded
  · intro hdone
    rcases h.completed hdone with hold | hfilled
    · exact .inl hold
    · exact .inr fun j hj => hstays _ j (hfilled j hj)

theorem Since.act {x y : Objective × SideEffects} (h : Since cr s i o x) (h0 : s.turnNum = 0)
    (hfund : x.1.fundingComplete = o.fundingComplete) (hact : Act cr sk x y) :
    Since cr s i o y := by
  cases hact with
  | sign ht hsign =>
    refine h.signed h0 ht hfund (Meth.after_ok hsign) (.inr rfl) fun t' ht' => ?_
    rcases sends_signed hsign ht' with hold | hnew
    · exact .inl hold
    · exact .inr (hnew.trans (ht.turnNum h.ready h0))
  | fail ht hsign =>
    exact h.signed h0 ht hfund (Meth.after_error hsign) (.inl rfl)
      fun t' ht' => absurd ht' (SideEffects.not_sends_empty t')
  | deposit hpre hdeposits hfirst =>
    have hnone : o.transactionSubmitted = false := by
      cases hsub : o.transactionSubmitted with
      | false => rfl
      | true => rw [h.submitted hsub] at hfirst; cases hfirst
    refine ⟨h.ready, h.stays, fun _ => rfl, .inr ⟨hnone, rfl, ?_, h.ready.pre.filled hpre⟩, h.sends,
      h.funded, h.completed⟩
    rcases h.submits with hempty | ⟨-, hsub, -⟩
    · show (_ ++ [_]).length = 1
      rw [hempty]
      rfl
    · rw [hfirst] at hsub
      cases hsub
  | complete hpost =>
    exact ⟨h.ready, h.stays, h.submitted, h.submits, h.sends, h.funded,
      fun _ => .inr (h.ready.post.filled hpost)⟩

theorem Since.acts {x : Objective × SideEffects} (h : Ready cr anySig s i o.c)
    (h0 : s.turnNum = 0) (hacts : ReflTransGen (Act cr sk) (o, .empty) x) : Since cr s i o x := by
  induction hacts with
  | refl => exact .refl h
  | tail hacts hact ih =>
    obtain ⟨hsame, hheld, -⟩ := acts_submit hacts
    exact ih.act h0 (fundingComplete_congr hsame hheld) hact

/-- with the client's own key, what is sent is signed for good -/
theorem acts_own {x : Objective × SideEffects} (h : Ready cr anySig s i o.c)
    (h0 : s.turnNum = 0) (hkey : OwnKey cr s.participants i sk)
    (hacts : ReflTransGen (Act cr sk) (o, .empty) x) (t : UInt64) (hsends : x.2.Sends t) :
    SignedBy t i x.1.c := by
  induction hacts with
  | refl => exact absurd hsends (SideEffects.not_sends_empty t)
  | tail hacts hact ih =>
    have hready := (Since.acts h h0 hacts).ready
    cases hact with
    | sign ht hsign =>
      rcases sends_signed hsign hsends with hold | rfl
      · show SignedBy t i _
        rw [← Meth.after_ok hsign]
        exact (ih hold).signAndAddState
      · obtain ⟨st, hrec, hpart, -⟩ := hready.record ht.turn h0
        refine Channel.signedBy_signAndAddState ?_ hsign
        rw [hrec.state_eq, hpart]
        exact hkey
    | fail ht hsign => exact absurd hsends (SideEffects.not_sends_empty t)
    | deposit => exact ih hsends
    | complete => exact ih hsends

/-! ## events -/

/-- `SetObjective` and `GetObjectiveById`: the channel is stored apart from the other fields -/
def reload (o : Objective) : Res Objective := do
  let stored ← unmarshalJSON o.marshalJSON
  let c ← Channel.json.dec (Channel.json.enc o.c)
  .ok { stored with c := c }

theorem reload_eq (o : Objective) : o.reload = .ok o := by
  unfold reload
  rw [unmarshalJSON_marshalJSON, Channel.json.round]
  rfl

/-- the side effects of a call -/
def Call.effects (cr : Crypto) (o : Objective) : Call → List SideEffects
  | .crank sk => ((o.crank cr sk).map fun r => [r.sideEffects]).toOption.getD []
  | _ => []

inductive Event where
  | call (call : Call)
  | reload

structure Trace where
  objective : Objective
  effects : List SideEffects

namespace Trace

def step (cr : Crypto) (t : Trace) : Event → Trace
  | .call call => ⟨call.step cr t.objective, t.effects ++ call.effects cr t.objective⟩
  | .reload => { t with objective := t.objective.reload.toOption.getD t.objective }

def transactions (t : Trace) : List ChainTransaction :=
  t.effects.flatMap SideEffects.transactionsToSubmit

/-- how often a state of turn `n` was sent to the other participants -/
def broadcasts (t : Trace) (n : UInt64) : Nat :=
  t.effects.countP fun se => decide (se.Sends n)

end Trace

/-- **an event is a `Crank` that returns, or it has no side effects** -/
theorem Trace.step_cases (cr : Crypto) (t : Trace) (e : Event) :
    Quiet cr t.objective (t.step cr e).objective ∧ (t.step cr e).effects = t.effects ∨
      ∃ sk r, e = .call (.crank sk) ∧ t.objective.crank cr sk = .ok r ∧
        t.step cr e = ⟨r.updated, t.effects ++ [r.sideEffects]⟩ := by
  have hquiet : ∀ call : Call, (∀ sk, call ≠ .crank sk) → call.effects cr t.objective = [] →
      Quiet cr t.objective (t.step cr (.call call)).objective ∧
        (t.step cr (.call call)).effects = t.effects := by
    intro call hcall hnone
    refine ⟨Call.quiet cr t.objective hcall, ?_⟩
    show t.effects ++ call.effects cr t.objective = t.effects
    rw [hnone, List.append_nil]
  cases e with
  | reload =>
    left
    unfold Trace.step
    rw [reload_eq]
    exact ⟨.same, rfl⟩
  | call call =>
    cases call with
    | crank sk =>
      cases hr : t.objective.crank cr sk with
      | error e =>
        left
        simp only [Trace.step, Call.step, Call.effects, hr]
        exact ⟨.same, List.append_nil _⟩
      | ok r =>
        refine .inr ⟨sk, r, rfl, hr, ?_⟩
        simp only [Trace.step, Call.step, Call.effects, hr]
        rfl
    | approve => exact .inl (hquiet .approve (fun sk e => by cases e) rfl)
    | reject => exact .inl (hquiet .reject (fun sk e => by cases e) rfl)
    | update event => exact .inl (hquiet (.update event) (fun sk e => by cases e) rfl)
    | updateWithChainEvent event =>
      exact .inl (hquiet (.updateWithChainEvent event) (fun sk e => by cases e) rfl)

/-! ## the invariant of a trace -/

theorem received_channel {c d e : Channel} (h : Setup cr anySig s i c) (hd : c.clone cr = .ok d)
    (he : Receives cr d e) :
    Ready cr anySig s i e ∧ ∀ t j, SignedBy t j c → SignedBy t j e := by
  have hready := h.clone hd
  rcases he with rfl | ⟨ss, rfl⟩ | ⟨funds, rfl⟩
  · exact ⟨hready, fun t j hj => hj.clone hd⟩
  · exact ⟨hready.addSignedState fun _ _ _ _ _ => trivial,
      fun t j hj => (hj.clone hd).addSignedState ss⟩
  · exact ⟨hready.congr rfl rfl rfl rfl, fun t j hj => (hj.clone hd).congr rfl⟩

theorem crank_since {r : Cranked} (h : Setup cr anySig s i o.c) (h0 : s.turnNum = 0)
    (hr : o.crank cr sk = .ok r) :
    ∃ d, o.c.clone cr = .ok d ∧ Since cr s i { o with c := d } (r.updated, r.sideEffects) := by
  obtain ⟨d, hd, hacts⟩ := crank_acts hr
  exact ⟨d, hd, Since.acts (h.clone hd) h0 hacts⟩

structure Lawful (cr : Crypto) (s : State) (i : Nat) (o₀ : Objective) (t : Trace) : Prop where
  setup : Setup cr anySig s i t.objective.c
  targets : SameTargets o₀ t.objective
  waiting : t.objective.transactionSubmitted = false → t.transactions = []
  once : t.transactions.length ≤ 1
  deposits : ∀ tx ∈ t.transactions, ∃ id funds, tx = .deposit id funds
  completed : t.objective.status = .completed →
    Ready cr anySig s i t.objective.c ∧ Filled s postFundTurnNum t.objective.c

theorem Lawful.quiet {o₀ : Objective} {t t' : Trace} (h : Lawful cr s i o₀ t)
    (hq : Quiet cr t.objective t'.objective) (he : t'.effects = t.effects) :
    Lawful cr s i o₀ t' := by
  have htx : t'.transactions = t.transactions := by
    unfold Trace.transactions
    rw [he]
  obtain ⟨o', effects⟩ := t'
  refine ⟨?_, h.targets.quiet hq, ?_, by rw [htx]; exact h.once, by rw [htx]; exact h.deposits, ?_⟩
  · cases hq with
    | same => exact h.setup
    | received hd hc _ => exact .inr (received_channel h.setup hd hc).1
  · intro hsub
    rw [htx]
    apply h.waiting
    cases hq with
    | same => exact hsub
    | received => exact hsub
  · intro hdone
    cases hq with
    | same => exact h.completed hdone
    | received hd hc hstatus =>
      obtain ⟨hready, hstays⟩ := received_channel h.setup hd hc
      obtain ⟨-, hfilled⟩ := h.completed (hstatus hdone)
      exact ⟨hready, fun j hj => hstays _ j (hfilled j hj)⟩

theorem Lawful.crank {o₀ : Objective} {t : Trace} {r : Cranked} (h : Lawful cr s i o₀ t)
    (h0 : s.turnNum = 0) (hr : t.objective.crank cr sk = .ok r) :
    Lawful cr s i o₀ ⟨r.updated, t.effects ++ [r.sideEffects]⟩ := by
  obtain ⟨d, hd, hsince⟩ := crank_since h.setup h0 hr
  obtain ⟨hsame, -, hdeposits⟩ := crank_ok hr
  have htx : (⟨r.updated, t.effects ++ [r.sideEffects]⟩ : Trace).transactions =
      t.transactions ++ r.sideEffects.transactionsToSubmit := by
    simp [Trace.transactions]
  refine ⟨.inr hsince.ready, ⟨hsame.safety.trans h.targets.safety,
    hsame.target.trans h.targets.target, hsame.full.trans h.targets.full⟩, ?_, ?_, ?_, ?_⟩
  · intro hsub
    rw [htx]
    rcases hsince.submits with hnone | ⟨-, hnow, -⟩
    · have hbefore : t.objective.transactionSubmitted = false := by
        cases hb : t.objective.transactionSubmitted with
        | false => rfl
        | true => exact absurd (hsince.submitted hb) (by rw [hsub]; exact Bool.false_ne_true)
      rw [h.waiting hbefore, hnone]
      rfl
    · have hsub : r.updated.transactionSubmitted = false := hsub
      rw [hnow] at hsub
      cases hsub
  · rw [htx, List.length_append]
    rcases hsince.submits with hnone | ⟨hfirst, -, hlen, -⟩
    · rw [hnone]
      exact h.once
    · rw [h.waiting hfirst, hlen]
      rfl
  · intro tx hmem
    rw [htx] at hmem
    rcases List.mem_append.1 hmem with hmem | hmem
    · exact h.deposits tx hmem
    · obtain ⟨id, funds, he, -⟩ := hdeposits tx hmem
      exact ⟨id, funds, he⟩
  · intro hdone
    refine ⟨hsince.ready, ?_⟩
    rcases hsince.completed hdone with hold | hfilled
    · intro j hj
      exact hsince.stays _ j (((h.completed hold).2 j hj).clone hd)
    · exact hfilled

theorem Lawful.step {o₀ : Objective} (h0 : s.turnNum = 0) (t : Trace) (e : Event)
    (h : Lawful cr s i o₀ t) : Lawful cr s i o₀ (t.step cr e) := by
  rcases Trace.step_cases cr t e with ⟨hq, he⟩ | ⟨sk, r, -, hr, hstep⟩
  · exact h.quiet hq he
  · rw [hstep]
    exact h.crank h0 hr

/-- what was sent is signed, and was sent once -/
def SentOnce (i : Nat) (n : UInt64) (t : Trace) : Prop :=
  t.broadcasts n ≤ 1 ∧ (¬ SignedBy n i t.objective.c → t.broadcasts n = 0)

/-- the cranks are made with the client's own key -/
def OwnCrank (cr : Crypto) (s : State) (i : Nat) : Event → Prop
  | .call (.crank sk) => OwnKey cr s.participants i sk
  | _ => True

theorem SentOnce.step {n : UInt64} (h0 : s.turnNum = 0) (t : Trace) (e : Event)
    (hsetup : Setup cr anySig s i t.objective.c) (h : SentOnce i n t) (hkey : OwnCrank cr s i e) :
    SentOnce i n (t.step cr e) := by
  rcases Trace.step_cases cr t e with ⟨hq, he⟩ | ⟨sk, r, rfl, hr, hstep⟩
  · have hcount : (t.step cr e).broadcasts n = t.broadcasts n := by
      unfold Trace.broadcasts
      rw [he]
    unfold SentOnce
    rw [hcount]
    refine ⟨h.1, fun hnot => h.2 fun hj => hnot ?_⟩
    generalize (t.step cr e).objective = o' at hq ⊢
    cases hq with
    | same => exact hj
    | received hd hc _ => exact (received_channel hsetup hd hc).2 n i hj
  · rw [hstep]
    obtain ⟨d, hd, hacts⟩ := crank_acts hr
    have hsince := Since.acts (hsetup.clone hd) h0 hacts
    have hcount : (⟨r.updated, t.effects ++ [r.sideEffects]⟩ : Trace).broadcasts n =
        t.broadcasts n + if r.sideEffects.Sends n then 1 else 0 := by
      simp [Trace.broadcasts, List.countP_append, List.countP_cons]
    unfold SentOnce
    rw [hcount]
    by_cases hs : r.sideEffects.Sends n
    · have hown := acts_own (hsetup.clone hd) h0 hkey hacts n hs
      have hbefore : t.broadcasts n = 0 := h.2 fun hj => hsince.sends n hs (hj.clone hd)
      rw [if_pos hs, hbefore]
      exact ⟨le_refl 1, fun hnot => absurd hown hnot⟩
    · rw [if_neg hs]
      exact ⟨h.1, fun hnot => h.2 fun hj => hnot (hsince.stays n i (hj.clone hd))⟩

/-- the `Crank` of `o` puts a signature on the record of turn `n`, or sends a state of that turn -/
def Cranked.Signs (o : Objective) (n : UInt64) (r : Cranked) : Prop :=
  (∃ j, SignedBy n j r.updated.c ∧ ¬ SignedBy n j o.c) ∨ r.sideEffects.Sends n

theorem crank_funded {r : Cranked} (h : Setup cr anySig s i o.c) (h0 : s.turnNum = 0)
    (hr : o.crank cr sk = .ok r) (hsigns : r.Signs o postFundTurnNum) :
    ∀ asset ∈ o.fullyFundedThreshold, asset ∈ o.c.onChainFunding ∧
      o.fullyFundedThreshold.amount asset ≤ o.c.onChainFunding.amount asset := by
  obtain ⟨d, hd, hsince⟩ := crank_since h h0 hr
  obtain ⟨-, -, -, hheld, -⟩ := Channel.clone_ok hd
  have hfunded : ({ o with c := d } : Objective).fundingComplete = true := by
    refine hsince.funded ?_
    rcases hsigns with ⟨j, hj, hnot⟩ | hsends
    · exact .inl ⟨j, hj, fun hjd => hnot (hjd.of_clone hd (h.mem (.inr rfl)))⟩
    · exact .inr hsends
  have hsame : ({ o with c := d } : Objective).fundingComplete = o.fundingComplete :=
    fundingComplete_congr ⟨rfl, rfl, rfl⟩ hheld
  rw [hsame] at hfunded
  exact fundingComplete_iff.1 hfunded

theorem crank_deposits {r : Cranked} (h : Setup cr anySig s i o.c) (h0 : s.turnNum = 0)
    (hr : o.crank cr sk = .ok r) (hsubmits : r.sideEffects.transactionsToSubmit ≠ []) :
    Carries cr s preFundTurnNum r.updated.c ∧ ∀ asset ∈ o.myDepositSafetyThreshold,
      o.myDepositSafetyThreshold.amount asset ≤ o.c.onChainFunding.amount asset := by
  obtain ⟨d, hd, hsince⟩ := crank_since h h0 hr
  constructor
  · rcases hsince.submits with hnone | ⟨-, -, -, hfilled⟩
    · exact absurd hnone hsubmits
    · exact hsince.ready.carries (.inl rfl) h0 hfilled
  · obtain ⟨tx, hmem⟩ := List.exists_mem_of_ne_nil _ hsubmits
    obtain ⟨id, deposits, -, hdeposits⟩ := (crank_ok hr).2.2 tx hmem
    exact hdeposits.safe

end Objective

/-! ## whole traces -/

section traces
variable {cr : Crypto} {preApprove : Bool} {s : State} {myAddress : Address} {o : Objective}
open Objective (Call Cranked Event Trace Lawful SentOnce SameTargets)

theorem lawful_new (hnew : constructFromState cr preApprove s myAddress = .ok o) :
    ∃ i, s.participants.findIdx? (fun v => decide (v = myAddress)) = some i ∧
      Lawful cr s i o ⟨o, []⟩ := by
  have hbuilt := constructFromState_ok hnew
  obtain ⟨i, hi, hc⟩ := hbuilt.channel
  refine ⟨i, hi, .inl hc, .refl o, fun _ => rfl, Nat.zero_le 1, fun tx hmem => ?_,
    fun hdone => ?_⟩
  · exact absurd hmem List.not_mem_nil
  · exact absurd hdone hbuilt.status

theorem mem_thresholds (hnew : constructFromState cr preApprove s myAddress = .ok o)
    {e : SingleAssetExit} (he : e ∈ s.outcome) :
    e.asset ∈ o.myDepositSafetyThreshold ∧ e.asset ∈ o.fullyFundedThreshold := by
  have hbuilt := constructFromState_ok hnew
  have hasset : e.asset ∈ s.outcome.map SingleAssetExit.asset := List.mem_map_of_mem he
  exact ⟨Exit.keys_fundsBy hbuilt.safety (.inr hasset), Exit.keys_fundsBy hbuilt.full (.inr hasset)⟩

/-- **nobody signs the postfund state of an underfunded channel**, if an asset that is listed again
allocates nothing before: the recorded holdings cover all allocations in each asset -/
theorem postfund_funded {events : List Event} {t : Trace} {sk : Bytes} {r : Cranked}
    {e : SingleAssetExit} (hnew : constructFromState cr preApprove s myAddress = .ok o)
    (hrepeated : s.outcome.Pairwise fun a b => a.asset = b.asset → a.allocated = 0)
    (ht : run (Trace.step cr) ⟨o, []⟩ events = t) (hr : t.objective.crank cr sk = .ok r)
    (hsigns : r.Signs t.objective postFundTurnNum) (he : e ∈ s.outcome) :
    s.outcome.allocatedIn e.asset ≤ t.objective.c.onChainFunding.amount e.asset := by
  obtain ⟨i, -, hlawful₀⟩ := lawful_new hnew
  have hbuilt := constructFromState_ok hnew
  have hlawful : Lawful cr s i o t := by
    rw [← ht]
    exact run_inv (Lawful.step hbuilt.turnNum) hlawful₀
  have hfunded := Objective.crank_funded hlawful.setup hbuilt.turnNum hr hsigns
  rw [hlawful.targets.full] at hfunded
  have hamount := Exit.amount_totalAllocated hbuilt.full hrepeated he
  rw [← hamount]
  exact (hfunded e.asset (mem_thresholds hnew he).2).2

end traces

end DirectFund

/-! ## sample traces -/

namespace Sample
open DirectFund.Objective (Event Trace)

/-- the first participant signs, hears from the second one, and the store is read again -/
def fundingEvents : List Event :=
  [.call (.crank (key 1)), .call (.update (prefundEvent fiveEach)), .reload]

def fundingRun (events : List Event) : Trace :=
  run (Trace.step Crypto.plain) ⟨fundingObjective fiveEach, []⟩ events

/-- both deposits are seen on chain -/
def fundedEvents : List Event :=
  [.call (.update (prefundEvent fiveEach)), .call (.updateWithChainEvent (.deposited 0 1 0 10 10))]

/-- the native token is listed twice, with ten and then with one -/
def listedTwice : State :=
  { state 0 with outcome := [⟨0, [], fiveEach⟩, ⟨0, [], [⟨1, some 1, 0, []⟩]⟩] }

def twiceObjective : DirectFund.Objective :=
  (DirectFund.constructFromState Crypto.plain true listedTwice 1).toOption.getD
    ⟨.unapproved, channel, ∅, ∅, ∅, 0, false⟩

/-- the second participant signs, and a deposit of one is seen on chain -/
def twiceEvents : List Event :=
  [.call (.update ⟨twiceObjective.id,
      ⟨listedTwice, some ((∅ : SigMap).insert 1 (sigOn listedTwice 2))⟩, SignedProposal.zero⟩),
    .call (.updateWithChainEvent (.deposited 0 1 0 1 1))]

def twiceRun : Trace := run (Trace.step Crypto.plain) ⟨twiceObjective, []⟩ twiceEvents

theorem crank_fundedEvents : ((fundingRun fundedEvents).objective.crank Crypto.plain (key 1) >>=
    fun r => .ok (decide (r.sideEffects.Sends postFundTurnNum))) = .ok true := by decide +kernel

theorem crank_twiceRun : (twiceRun.objective.crank Crypto.plain (key 1) >>= fun r =>
    .ok (decide (r.sideEffects.Sends postFundTurnNum),
      twiceRun.objective.c.onChainFunding.amount 0)) = .ok (true, 1) := by decide +kernel

end Sample

namespace DirectFund
open Objective (Call Cranked Event Trace)

theorem postfund_funded_five :
    (Sample.fundingState Sample.fiveEach).outcome.allocatedIn 0 ≤
      (Sample.fundingRun Sample.fundedEvents).objective.c.onChainFunding.amount 0 := by
  obtain ⟨r, hr, hsends⟩ := Res.bind_eq_ok.1 Sample.crank_fundedEvents
  have hnew : constructFromState Crypto.plain true (Sample.fundingState Sample.fiveEach) 1 =
      .ok (Sample.fundingObjective Sample.fiveEach) := by decide +kernel
  exact postfund_funded (t := Sample.fundingRun Sample.fundedEvents) hnew
    (List.pairwise_singleton _ _) rfl hr (.inr (of_decide_eq_true (Except.ok.inj hsends)))
    (e := ⟨0, [], Sample.fiveEach⟩) (List.mem_singleton_self _)

/-- eleven are allocated, one is there, and the postfund state is signed and sent -/
theorem underfunded_postfund_signed : ∃ o t r,
    constructFromState Crypto.plain true Sample.listedTwice 1 = .ok o ∧
    run (Trace.step Crypto.plain) ⟨o, []⟩ Sample.twiceEvents = t ∧
    t.objective.crank Crypto.plain (Sample.key 1) = .ok r ∧
    r.Signs t.objective postFundTurnNum ∧ t.objective.c.onChainFunding.amount 0 = 1 ∧
    Sample.listedTwice.outcome.allocatedIn 0 = 11 := by
  obtain ⟨r, hr, hpair⟩ := Res.bind_eq_ok.1 Sample.crank_twiceRun
  obtain ⟨hsends, hheld⟩ := Prod.mk.inj (Except.ok.inj hpair)
  have hnew : constructFromState Crypto.plain true Sample.listedTwice 1 =
      .ok Sample.twiceObjective := by decide +kernel
  exact ⟨Sample.twiceObjective, Sample.twiceRun, r, hnew, rfl, hr,
    .inr (of_decide_eq_true hsends), hheld, by decide +kernel⟩

end DirectFund

end Nitro
