import Nitro.Consensus.Invariant
import Nitro.Protocols.Authorised
import Nitro.Protocols.Backing

/-!
# The three participants of a virtual channel

Each participant that is honest runs one objective for `V`.  What it signs of `V` it signs in a `Crank`,
and a signature leaves it when the `Crank` returns.  Everything else comes from outside: messages may
be made up, late, repeated or in any order, but a signature that recovers to an honest participant is
on a state with the hash of one that this participant signed.

* `Party.perform`          a call at one participant;
* `Admissible`             what may come from outside;
* `Party.Sound`            what holds of each honest participant;
* `Parties.sound_step`     every call keeps it, at the others too;
* `virtual_funding_safe`   **if one honest participant is done, the ledgers of all of them are funded**.
-/

set_option linter.unusedSectionVars false

namespace Nitro
open Go FinMap Runs

namespace VirtualFund

/-! ## the system -/

/-- an honest participant: its objective, the states of `V` on which its signature is out, and every
objective that it has had -/
structure Party where
  objective : Objective
  signed : List State
  held : List Objective

/-- the states whose signatures a call lets out; a `Crank` that fails gives back none -/
def Objective.Call.released (cr : Crypto) (o : Objective) : Objective.Call → List State
  | .crank orders sk =>
    match o.crank cr orders sk with
    | .error _ => []
    | .ok r => if r.err.isSome then [] else Objective.signedStates (o.crankUses cr orders sk)
  | _ => []

def Party.perform (cr : Crypto) (p : Party) (call : Objective.Call) : Party where
  objective := call.step cr p.objective
  signed := p.signed ++ call.released cr p.objective
  held := call.step cr p.objective :: p.held

abbrev Parties := Fin 3 → Party

structure Action where
  who : Fin 3
  call : Objective.Call

namespace Parties

def step (cr : Crypto) (w : Parties) (a : Action) : Parties :=
  Function.update w a.who ((w a.who).perform cr a.call)

/-- nothing was signed yet -/
def start (o : Fin 3 → Objective) : Parties := fun i => ⟨o i, [], [o i]⟩

/-- if the signature is that of an honest participant, then that participant signed this hash -/
def Attested (cr : Crypto) (honest : Fin 3 → Prop) (address : Fin 3 → Address) (w : Parties)
    (s : State) (sig : Signature) : Prop :=
  ∀ j, honest j → s.recoverSigner cr sig = .ok (address j) →
    ∃ x ∈ (w j).signed, x.hash cr = s.hash cr

end Parties

/-- signatures are not forged, but messages may be; an honest participant cranks with its own key -/
def Objective.Call.Permitted (cr : Crypto) (honest : Fin 3 → Prop) (address : Fin 3 → Address)
    (w : Parties) (who : Fin 3) : Objective.Call → Prop
  | .update event => ∀ e ∈ event.signedState.entries.entries,
      w.Attested cr honest address event.signedState.state e.2
  | .crank _ sk => cr.secretKeyToAddress sk = some (address who)
  | _ => True

def Admissible (cr : Crypto) (honest : Fin 3 → Prop) (address : Fin 3 → Address) (w : Parties)
    (a : Action) : Prop :=
  honest a.who ∧ a.call.Permitted cr honest address w a.who

section decidable
variable (cr : Crypto) (honest : Fin 3 → Prop) [DecidablePred honest] (address : Fin 3 → Address)

instance (w : Parties) (s : State) (sig : Signature) :
    Decidable (w.Attested cr honest address s sig) := by
  unfold Parties.Attested
  infer_instance

instance (w : Parties) (who : Fin 3) : (call : Objective.Call) →
    Decidable (call.Permitted cr honest address w who)
  | .update event => inferInstanceAs (Decidable (∀ e ∈ event.signedState.entries.entries,
      w.Attested cr honest address event.signedState.state e.2))
  | .crank _ sk => inferInstanceAs (Decidable (cr.secretKeyToAddress sk = some (address who)))
  | .approve => .isTrue trivial
  | .reject => .isTrue trivial

instance (w : Parties) (a : Action) : Decidable (Admissible cr honest address w a) := by
  unfold Admissible
  infer_instance

end decidable

/-! ## one participant -/

/-- the ledgers next to the participant include the expected guarantees -/
def Objective.Funded (f : Objective.Frame) (o : Objective) : Prop :=
  ∀ side : Side, side.Adjacent f.myRole → ∃ c r, o.connection side = some c ∧
    c.funded r = true ∧ f.info side c.guaranteeInfo ∧ f.ledger side c.channel

structure Party.Sound (cr : Crypto) (G : State → Signature → Prop) (s : State)
    (f : Objective.Frame) (p : Party) : Prop where
  keeps : Objective.Keeps (Channel.Setup cr G s f.myRole) f p.objective
  signed : ∀ x ∈ p.signed, x = s.copied ∨ x = s.postfund ∧ ∃ o ∈ p.held, o.Funded f
  completed : p.objective.status = .completed → s.turnNum = preFundTurnNum ∧
    Channel.AllSigned cr G s.copied ∧ Channel.AllSigned cr G s.postfund

section party
variable {cr : Crypto} {G G' : State → Signature → Prop} {s : State} {f : Objective.Frame}
variable {p : Party} {o : Objective}

theorem Party.Sound.mono (h : p.Sound cr G s f) (hG : ∀ x sig, G x sig → G' x sig) :
    p.Sound cr G' s f := by
  refine ⟨h.keeps.mono fun hv => hv.mono hG, h.signed, fun hdone => ?_⟩
  obtain ⟨hturn, hpre, hpost⟩ := h.completed hdone
  exact ⟨hturn, hpre.mono hG, hpost.mono hG⟩

/-- what a call that signs nothing may return -/
structure Objective.Follows (cr : Crypto) (G : State → Signature → Prop) (s : State)
    (f : Objective.Frame) (o d : Objective) : Prop where
  keeps : Objective.Keeps (Channel.Setup cr G s f.myRole) f d
  completed : d.status = .completed → o.status = .completed

theorem Party.Sound.follows (h : p.Sound cr G s f) :
    Objective.Follows cr G s f p.objective p.objective :=
  ⟨h.keeps, fun hdone => hdone⟩

theorem Party.Sound.quiet {call : Objective.Call} (h : p.Sound cr G s f)
    (hreleased : call.released cr p.objective = [])
    (hstep : Objective.Follows cr G s f p.objective (call.step cr p.objective)) :
    (p.perform cr call).Sound cr G s f := by
  refine ⟨hstep.keeps, fun x hx => ?_, fun hdone => h.completed (hstep.completed hdone)⟩
  have hx : x ∈ p.signed ++ call.released cr p.objective := hx
  rw [hreleased, List.append_nil] at hx
  rcases h.signed x hx with hpre | ⟨hpost, o, ho, hfunded⟩
  · exact .inl hpre
  · exact .inr ⟨hpost, o, List.mem_cons_of_mem _ ho, hfunded⟩

variable {A : List State → State → Signature → Prop}

theorem funded_of_advanced {orders : Side → Objective.LoopOrders} {k : Objective.Work}
    (h : Objective.Advanced cr A s f orders k)
    (hcomplete : k.updated.fundingComplete orders = .ok true) : k.updated.Funded f := by
  intro side hadj
  have hrole : side.Adjacent k.updated.myRole := by
    rw [h.cranking.keeps.myRole]
    exact hadj
  obtain ⟨c, hc, hfunded⟩ :=
    Objective.fundingComplete_ok hcomplete h.cranking.keeps.n hrole
  obtain ⟨hinfo, hledger⟩ := h.cranking.keeps.connection side c hc
  exact ⟨c, _, hc, hfunded, hinfo, hledger⟩

/-- what a call brings in: signatures that are accounted for, or our own key -/
def Objective.Call.Supplied (cr : Crypto) (A : List State → State → Signature → Prop) :
    Objective.Call → Prop
  | .update event => event.signedState.Brings cr (A [])
  | .crank _ sk => Objective.Attests cr sk A
  | _ => True

variable (hL : ∀ side, ConsensusChannel.Kept cr (f.ledger side)) (hne : s.participants ≠ [])
include hL hne

theorem Party.Sound.crank {orders : Side → Objective.LoopOrders} {sk : Bytes} (h : p.Sound cr (A []) s f)
    (hA : Objective.Attests cr sk A) :
    (p.perform cr (.crank orders sk)).Sound cr
      (A ((Objective.Call.crank orders sk).released cr p.objective)) s f := by
  cases hr : p.objective.crank cr orders sk with
  | error e =>
    have hstep : (Objective.Call.crank orders sk).step cr p.objective = p.objective := by
      simp [Objective.Call.step, hr, Except.map, Except.toOption]
    have hreleased : (Objective.Call.crank orders sk).released cr p.objective = [] := by
      simp [Objective.Call.released, hr]
    rw [hreleased]
    refine h.quiet hreleased ?_
    rw [hstep]
    exact h.follows
  | ok r =>
    have hstep : (Objective.Call.crank orders sk).step cr p.objective = r.updated := by
      simp [Objective.Call.step, hr, Except.map, Except.toOption]
    rcases Objective.crank_ok hL hA hne h.keeps hr with ⟨herr, hsame⟩ | ⟨herr, k, hk, hupdated, huses⟩
    · have hreleased : (Objective.Call.crank orders sk).released cr p.objective = [] := by
        simp [Objective.Call.released, hr, Option.isSome_iff_ne_none.2 herr]
      rw [hreleased]
      refine h.quiet hreleased ?_
      rw [hstep]
      rcases hsame with hsame | hcopy
      · rw [hsame]
        exact h.follows
      · obtain ⟨-, hstatus, -⟩ := Objective.clone_ok hcopy
        refine ⟨(h.keeps.clone hL (fun _ _ hv => hv.clone) hcopy).mono .inr, fun hdone => ?_⟩
        rw [← hstatus]
        exact hdone
    · have hreleased : (Objective.Call.crank orders sk).released cr p.objective = k.states := by
        simp [Objective.Call.released, hr, herr, huses, Objective.Work.states]
      rw [hupdated] at hstep
      rw [hreleased]
      refine ⟨?_, fun x hx => ?_, ?_⟩
      · show Objective.Keeps _ f ((Objective.Call.crank orders sk).step cr p.objective)
        rw [hstep]
        exact hk.cranking.keeps.mono .inr
      · show x = s.copied ∨ x = s.postfund ∧
          ∃ o ∈ (Objective.Call.crank orders sk).step cr p.objective :: p.held, o.Funded f
        have hx : x ∈ p.signed ++ (Objective.Call.crank orders sk).released cr p.objective := hx
        rw [hreleased] at hx
        rw [hstep]
        rcases List.mem_append.1 hx with hold | hnew
        · rcases h.signed x hold with hpre | ⟨hpost, o, ho, hfunded⟩
          · exact .inl hpre
          · exact .inr ⟨hpost, o, List.mem_cons_of_mem _ ho, hfunded⟩
        · rcases hk.signed x hnew with hpre | ⟨hpost, hcomplete⟩
          · exact .inl hpre
          · exact .inr ⟨hpost, k.updated, List.mem_cons_self, funded_of_advanced hk hcomplete⟩
      · show ((Objective.Call.crank orders sk).step cr p.objective).status = .completed → _
        rw [hstep]
        intro hdone
        rcases hk.completed with happroved | hall
        · rw [happroved] at hdone
          cases hdone
        · exact hall

/-- **a call keeps what holds of the participant** -/
theorem Party.Sound.perform (h : p.Sound cr (A []) s f) {call : Objective.Call}
    (hcall : call.Supplied cr A) :
    (p.perform cr call).Sound cr (A (call.released cr p.objective)) s f := by
  have hcopy : ∀ {x : Objective} {status : ObjectiveStatus}, p.objective.clone cr = .ok x →
      Objective.Keeps (Channel.Setup cr (A []) s f.myRole) f { x with status := status } := by
    intro x status hx
    exact ((h.keeps.clone hL (fun _ _ hv => hv.clone) hx).mono .inr).setStatus _
  cases call with
  | approve =>
    refine h.quiet rfl (Res.getD_ind h.follows fun d hd => ?_)
    obtain ⟨x, hx, hend⟩ := Res.bind_eq_ok.1 hd
    cases hend
    exact ⟨hcopy hx, fun hdone => nomatch hdone⟩
  | reject =>
    refine h.quiet rfl (Res.getD_ind h.follows fun d hd => ?_)
    obtain ⟨x, hx, hend⟩ := Res.bind_eq_ok.1 hd
    cases hend
    exact ⟨hcopy hx, fun hdone => nomatch hdone⟩
  | update event =>
    refine h.quiet rfl (Res.getD_ind h.follows fun d hd => ?_)
    have hupdate : Objective.Keeps (Channel.Ready cr (A []) s f.myRole) f d :=
      h.keeps.update hL (fun _ _ hv => hv.clone) (fun v hv => hv.addSignedState hcall) hd
    refine ⟨hupdate.mono .inr, fun hdone => ?_⟩
    rw [← Objective.update_status hd]
    exact hdone
  | crank orders sk => exact h.crank hL hne hcall

end party

/-! ## all three -/

namespace Parties
variable {cr : Crypto} {honest : Fin 3 → Prop} {address : Fin 3 → Address} {w w' : Parties}
variable {s : Fin 3 → State} {f : Fin 3 → Objective.Frame}

theorem Attested.mono {x : State} {sig : Signature} (h : w.Attested cr honest address x sig)
    (hw : ∀ j, ∀ y ∈ (w j).signed, y ∈ (w' j).signed) : w'.Attested cr honest address x sig := by
  intro j hj hrec
  obtain ⟨y, hy, hhash⟩ := h j hj hrec
  exact ⟨y, hw j y hy, hhash⟩

/-- the same with what the participant `i` is about to sign -/
def AttestedWith (cr : Crypto) (honest : Fin 3 → Prop) (address : Fin 3 → Address) (w : Parties)
    (i : Fin 3) (l : List State) (x : State) (sig : Signature) : Prop :=
  ∀ j, honest j → x.recoverSigner cr sig = .ok (address j) →
    ∃ y, (y ∈ (w j).signed ∨ j = i ∧ y ∈ l) ∧ y.hash cr = x.hash cr

theorem attestedWith_nil {i : Fin 3} {x : State} {sig : Signature}
    (h : w.Attested cr honest address x sig) : w.AttestedWith cr honest address i [] x sig := by
  intro j hj hrec
  obtain ⟨y, hy, hhash⟩ := h j hj hrec
  exact ⟨y, .inl hy, hhash⟩

theorem attests (hsc : SignCorrect cr) (hinj : Function.Injective address) {i : Fin 3} {sk : Bytes}
    (hkey : cr.secretKeyToAddress sk = some (address i)) :
    Objective.Attests cr sk (w.AttestedWith cr honest address i) := by
  refine ⟨fun {l x st sig} h j hj hrec => ?_, fun {l st sig} hsig j hj hrec => ?_⟩
  · obtain ⟨y, hy, hhash⟩ := h j hj hrec
    refine ⟨y, ?_, hhash⟩
    rcases hy with hold | ⟨hi, hl⟩
    · exact .inl hold
    · exact .inr ⟨hi, List.mem_append_left _ hl⟩
  · have hown := State.recover_sign hsc hsig hkey
    have hi : j = i := hinj (Except.ok.inj (hrec.symm.trans hown))
    exact ⟨st, .inr ⟨hi, List.mem_append_right _ (List.mem_singleton.2 rfl)⟩, rfl⟩

/-- what holds of every honest participant -/
def Sound (cr : Crypto) (honest : Fin 3 → Prop) (address : Fin 3 → Address) (s : Fin 3 → State)
    (f : Fin 3 → Objective.Frame) (w : Parties) : Prop :=
  ∀ i, honest i → (w i).Sound cr (w.Attested cr honest address) (s i) (f i)

theorem supplied {a : Action} (hsc : SignCorrect cr) (hinj : Function.Injective address)
    (ha : Admissible cr honest address w a) :
    a.call.Supplied cr (w.AttestedWith cr honest address a.who) := by
  obtain ⟨who, call⟩ := a
  obtain ⟨-, hcall⟩ := ha
  cases call with
  | approve => trivial
  | reject => trivial
  | update event =>
    intro i sig _ hi _
    have hmem := AList.mem_lookup_iff.1 hi
    exact attestedWith_nil (hcall ⟨i, sig⟩ hmem)
  | crank orders sk => exact attests hsc hinj hcall

/-- **every call keeps what holds of the three** -/
theorem sound_step (hsc : SignCorrect cr) (hinj : Function.Injective address)
    (hL : ∀ i side, ConsensusChannel.Kept cr ((f i).ledger side))
    (hne : ∀ i, honest i → (s i).participants ≠ []) (w : Parties) (a : Action)
    (h : w.Sound cr honest address s f) (ha : Admissible cr honest address w a) :
    (w.step cr a).Sound cr honest address s f := by
  have hwho : w.step cr a a.who = (w a.who).perform cr a.call := Function.update_self _ _ _
  have hgrow : ∀ j, ∀ y ∈ (w j).signed, y ∈ (w.step cr a j).signed := by
    intro j y hy
    by_cases hj : j = a.who
    · subst hj
      rw [hwho]
      exact List.mem_append_left _ hy
    · rw [step, Function.update_of_ne hj]
      exact hy
  intro i hi
  by_cases he : i = a.who
  · subst he
    have hsound : (w a.who).Sound cr (w.AttestedWith cr honest address a.who []) (s a.who)
        (f a.who) := (h a.who hi).mono fun _ _ => attestedWith_nil
    have hnext := hsound.perform (hL a.who) (hne a.who hi) (supplied hsc hinj ha)
    rw [hwho]
    refine hnext.mono fun x sig hx j hj hrec => ?_
    obtain ⟨y, hy, hhash⟩ := hx j hj hrec
    refine ⟨y, ?_, hhash⟩
    rcases hy with hold | ⟨rfl, hnew⟩
    · exact hgrow j y hold
    · rw [hwho]
      exact List.mem_append_right _ hnew
  · rw [show w.step cr a i = w i from Function.update_of_ne he _ _]
    exact (h i hi).mono fun _ _ hx => hx.mono hgrow

end Parties

/-! ## safety -/

theorem kept_valid {cr : Crypto} (hsc : SignCorrect cr) :
    ConsensusChannel.Kept cr fun c => ∃ leader follower, c.Valid cr leader follower := by
  refine ⟨fun {c c'} h hclone => ?_, fun {c o c'} h hchange => ?_⟩
  · obtain ⟨leader, follower, hvalid⟩ := h
    obtain ⟨d, hd, hvalid'⟩ := ConsensusChannel.valid_clone hvalid
    obtain rfl : d = c' := Except.ok.inj (hd.symm.trans hclone)
    exact ⟨leader, follower, hvalid'⟩
  · obtain ⟨leader, follower, hvalid⟩ := h
    exact ⟨leader, follower, hchange.valid hsc hvalid⟩

/-- the ledger on a side has the guarantee for `V` that is expected there, in a consensus state that
both of its parties signed: the amount is the sum of the two initial amounts, and left and right are
the neighbours in `V` -/
def HoldsGuarantee (cr : Crypto) (asset : Address) (s : State) (o₀ : Objective) (side : Side)
    (o : Objective) : Prop :=
  ∃ c leader follower g x y, o.connection side = some c ∧ c.channel.Valid cr leader follower ∧
    c.channel.current.vars.outcome.guarantees.lookup o₀.v.id = some g ∧
    s.participants[side.position o₀.myRole]? = some x ∧
    s.participants[side.position o₀.myRole + 1]? = some y ∧
    g.wire = ⟨some (o₀.a0.amount asset + o₀.b0.amount asset), o₀.v.id, addressToDestination x,
      addressToDestination y⟩

/-- Keccak has no collision on the setup states of the honest participants -/
def Collisionless (cr : Crypto) (honest : Fin 3 → Prop) (s : Fin 3 → State) : Prop :=
  ∀ i j, honest i → honest j → ∀ x ∈ [(s i).copied, (s i).postfund],
    ∀ y ∈ [(s j).copied, (s j).postfund], ∀ b b', x.encode cr = .ok b → y.encode cr = .ok b' →
      cr.keccak256 b = cr.keccak256 b' → b = b'

section safety
variable {cr : Crypto} {honest : Fin 3 → Prop} {address : Fin 3 → Address} {w : Parties}
variable {s : Fin 3 → State} {i j : Fin 3}

theorem Collisionless.turnNum_eq (h : Collisionless cr honest s) (hi : honest i) (hj : honest j)
    {x y : State} (hx : x ∈ [(s i).copied, (s i).postfund])
    (hy : y ∈ [(s j).copied, (s j).postfund]) {sig : Signature} {a : Address}
    (hrec : x.recoverSigner cr sig = .ok a) (hhash : y.hash cr = x.hash cr) :
    y.turnNum = x.turnNum := by
  obtain ⟨hash, hxhash, -⟩ := Res.bind_eq_ok.1 hrec
  obtain ⟨b, hb, hkeccak⟩ := State.hash_eq_ok.1 hxhash
  obtain ⟨b', hb', hkeccak'⟩ := State.hash_eq_ok.1 (hhash.trans hxhash)
  obtain rfl := h i j hi hj x hx y hy b b' hb hb' (hkeccak.trans hkeccak'.symm)
  exact State.turnNum_of_encode hb' hb

theorem Parties.Sound.funded {f : Fin 3 → Objective.Frame} (h : w.Sound cr honest address s f)
    (hcoll : Collisionless cr honest s)
    (hparts : ∀ i, honest i → (s i).participants = [address 0, address 1, address 2])
    (hi : honest i) (hdone : (w i).objective.status = .completed) (hj : honest j) :
    ∃ o ∈ (w j).held, o.Funded (f j) := by
  obtain ⟨hturn, hpre, hpost⟩ := (h i hi).completed hdone
  have hj' : (s i).participants[(j : Nat)]? = some (address j) := by
    rw [hparts i hi]
    match j with
    | 0 => rfl
    | 1 => rfl
    | 2 => rfl
  have hsetup : ∀ x ∈ (w j).signed, x ∈ [(s j).copied, (s j).postfund] := by
    intro x hx
    rcases (h j hj).signed x hx with rfl | ⟨rfl, -⟩
    · exact List.mem_cons_self
    · exact List.mem_cons_of_mem _ List.mem_cons_self
  -- the other one signed the prefund state, so its channel starts with turn number zero too
  obtain ⟨sig, hrec, hattested⟩ := hpre j _ hj'
  obtain ⟨x, hx, hhash⟩ := hattested j hj hrec
  have hxturn := hcoll.turnNum_eq hi hj List.mem_cons_self (hsetup x hx) hrec hhash
  have hstart : (s j).turnNum = preFundTurnNum := by
    rcases (h j hj).signed x hx with rfl | ⟨rfl, -⟩
    · exact hxturn.trans hturn
    · have hone : postFundTurnNum = preFundTurnNum := hxturn.trans hturn
      exact absurd hone (by decide)
  -- and then it signed the postfund state
  obtain ⟨sig', hrec', hattested'⟩ := hpost j _ hj'
  obtain ⟨y, hy, hhash'⟩ := hattested' j hj hrec'
  have hyturn := hcoll.turnNum_eq hi hj (List.mem_cons_of_mem _ List.mem_cons_self) (hsetup y hy)
    hrec' hhash'
  rcases (h j hj).signed y hy with rfl | ⟨-, hheld⟩
  · have hone : preFundTurnNum = postFundTurnNum := hstart.symm.trans hyturn
    exact absurd hone (by decide)
  · exact hheld

theorem lastIndex_of_injective (hinj : Function.Injective address) (j : Fin 3) :
    lastIndex (address j) [address 0, address 1, address 2] = some j.val := by
  have hne : ∀ {a b : Fin 3}, a ≠ b → address a ≠ address b := fun h e => h (hinj e)
  match j with
  | 0 =>
    simp [lastIndex, hne (show (1 : Fin 3) ≠ 0 by decide), hne (show (2 : Fin 3) ≠ 0 by decide)]
  | 1 => simp [lastIndex, hne (show (2 : Fin 3) ≠ 1 by decide)]
  | 2 => simp [lastIndex]

/-- **three-party safety.**  If the objective of one honest participant is completed, then every honest
participant has had, on each of its sides, a ledger with the guarantee that it expects -/
theorem virtual_funding_safe (hsc : SignCorrect cr) (hinj : Function.Injective address)
    {getLedger : Fin 3 → Address → Option ConsensusChannel} {o : Fin 3 → Objective}
    {asset : Fin 3 → Address}
    (hopened : ∀ i, honest i → Opened cr (getLedger i) (address i) (s i) (o i))
    (hparts : ∀ i, honest i → (s i).participants = [address 0, address 1, address 2])
    (hasset : ∀ i, honest i → OneAsset (s i).outcome (asset i))
    (hledgers : ∀ i a c, honest i → getLedger i a = some c →
      ∃ leader follower, c.Valid cr leader follower)
    (hcoll : Collisionless cr honest s) {actions : List Action}
    (hactions : Along (Parties.step cr) (Admissible cr honest address) (Parties.start o) actions)
    (hi : honest i)
    (hdone : (run (Parties.step cr) (Parties.start o) actions i).objective.status = .completed)
    (hj : honest j) :
    ∃ o' ∈ (run (Parties.step cr) (Parties.start o) actions j).held,
      ∀ side : Side, side.Adjacent j → HoldsGuarantee cr (asset j) (s j) (o j) side o' := by
  let f : Fin 3 → Objective.Frame := fun i => (o i).frame (s i) fun _ c =>
    ∃ leader follower, c.Valid cr leader follower
  have hstart : (Parties.start o).Sound cr honest address s f := by
    intro i hi
    refine ⟨(hopened i hi).keeps fun side c hc => ?_, (fun x hx => nomatch hx), fun hdone => ?_⟩
    · obtain ⟨a, ha⟩ := (hopened i hi).stored hc
      exact hledgers i a c.channel hi ha
    · exact absurd hdone (hopened i hi).not_completed
  have hrun : (run (Parties.step cr) (Parties.start o) actions).Sound cr honest address s f := by
    refine Along.inv (Parties.sound_step hsc hinj (fun i side => kept_valid hsc) fun i hi => ?_)
      hstart hactions
    exact (hopened i hi).participants_ne_nil
  obtain ⟨o', ho', hfunded⟩ := hrun.funded hcoll hparts hi hdone hj
  refine ⟨o', ho', fun side hadj => ?_⟩
  have hrole : (o j).myRole = j := by
    obtain ⟨_, _, _, hconstruct, -, -⟩ := (hopened j hj).construct
    obtain ⟨hindex, -⟩ := constructFromState_ok hconstruct
    rw [hparts j hj, lastIndex_of_injective hinj] at hindex
    exact (Option.some.inj hindex).symm
  rw [← hrole] at hadj
  obtain ⟨c, r, hc, hincluded, ⟨x, y, hx, hy, hinfo⟩, leader, follower, hvalid⟩ := hfunded side hadj
  obtain ⟨ha, hb⟩ := (hopened j hj).amounts_keys (hasset j hj)
  unfold Connection.funded at hincluded
  rw [c.getExpectedGuarantee_single r hinfo ha hb] at hincluded
  obtain ⟨g, hg, hwire⟩ := includes_ok hincluded
  exact ⟨c, leader, follower, g, x, y, hc, hvalid, hg, hx, hy, hwire⟩

end safety

end VirtualFund

/-! ## Alice and Bob with an intermediary that nothing is known about -/

namespace Sample
open VirtualFund

def addresses (i : Fin 3) : Address := BitVec.ofNat 160 (i + 1)

def aliceAndBob (i : Fin 3) : Prop := i ≠ 1

instance : DecidablePred aliceAndBob := fun i => inferInstanceAs (Decidable (i ≠ 1))

/-- each of the two has a ledger with the intermediary -/
def theirLedgers : Fin 3 → Address → Option ConsensusChannel
  | 0 => fun _ => some (ledgerLedBy 1 2)
  | _ => fun _ => some { ledgerLedBy 2 3 with myIndex := followerIndex }

def theirObjectives : Fin 3 → Objective
  | 0 => aliceFunds
  | _ => (constructObjectiveFromState Crypto.plain virtualState true 3
      (theirLedgers 2)).toOption.getD aliceFunds

/-- a state of the channel with the signatures of Alice and the intermediary -/
def signedForBob (s : State) : SignedState :=
  ⟨s, some (((∅ : SigMap).insert 0 (sigOn s 1)).insert 1 (sigOn s 2))⟩

/-- what the intermediary proposes to Bob -/
def proposedToBob : SignedProposal where
  signature := sigOn (((ledgerLedBy 2 3).current.vars.funded
    (Vars.guaranteeFor virtualId 2 3 5 3) 5).asState (ledgerLedBy 2 3).fp) 2
  proposal := newAddProposal (ledgerLedBy 2 3).id (Vars.guaranteeFor virtualId 2 3 5 3).wire (some 5)
  turnNum := 1

def funding : List VirtualFund.Action :=
  [⟨0, .crank orders (key 1)⟩, ⟨2, .crank orders (key 3)⟩,
    ⟨0, .update ⟨aliceFunds.id, signedByOthers virtualState, SignedProposal.zero⟩⟩,
    ⟨2, .update ⟨aliceFunds.id, signedForBob virtualState, SignedProposal.zero⟩⟩,
    ⟨0, .crank orders (key 1)⟩,
    ⟨2, .update ⟨aliceFunds.id, SignedState.zero, proposedToBob⟩⟩, ⟨2, .crank orders (key 3)⟩,
    ⟨0, .update ⟨aliceFunds.id, SignedState.zero, countersigned⟩⟩, ⟨0, .crank orders (key 1)⟩,
    ⟨0, .update ⟨aliceFunds.id, signedByOthers virtualState.postfund, SignedProposal.zero⟩⟩,
    ⟨0, .crank orders (key 1)⟩]

theorem funding_completed :
    Along (Parties.step Crypto.plain) (Admissible Crypto.plain aliceAndBob addresses)
      (Parties.start theirObjectives) funding ∧
    (run (Parties.step Crypto.plain) (Parties.start theirObjectives) funding 0).objective.status =
      .completed := by decide +kernel

theorem their_opened (i : Fin 3) (hi : aliceAndBob i) :
    Opened Crypto.plain (theirLedgers i) (addresses i) virtualState (theirObjectives i) := by
  match i with
  | 0 => exact .request new_aliceFunds
  | 1 => exact absurd rfl hi
  | 2 =>
    have h : constructObjectiveFromState Crypto.plain virtualState true (addresses 2)
        (theirLedgers 2) = .ok (theirObjectives 2) := by decide +kernel
    exact .message h

theorem their_ledgers_valid (i : Fin 3) (a : Address) (c : ConsensusChannel)
    (hc : theirLedgers i a = some c) :
    ∃ leader follower, c.Valid Crypto.plain leader follower := by
  have hother : ConsensusChannel.Valid Crypto.plain 2 3
      { ledgerLedBy 2 3 with myIndex := followerIndex } :=
    ⟨by decide +kernel, rfl, rfl, by decide +kernel, by decide +kernel, trivial⟩
  match i with
  | 0 =>
    rw [← Option.some.inj hc]
    exact ⟨1, 2, by decide +kernel, rfl, rfl, by decide +kernel, by decide +kernel, trivial⟩
  | 1 =>
    rw [← Option.some.inj hc]
    exact ⟨2, 3, hother⟩
  | 2 =>
    rw [← Option.some.inj hc]
    exact ⟨2, 3, hother⟩

theorem collisionless_virtual : Collisionless Crypto.plain aliceAndBob fun _ => virtualState := by
  have hne : virtualState.copied.hash Crypto.plain ≠ virtualState.postfund.hash Crypto.plain := by
    decide +kernel
  have heq : ∀ {x y : State} {b b' : Bytes}, x.encode Crypto.plain = .ok b →
      y.encode Crypto.plain = .ok b' → Crypto.plain.keccak256 b = Crypto.plain.keccak256 b' →
      x.hash Crypto.plain = y.hash Crypto.plain := by
    intro x y b b' hb hb' hkeccak
    rw [State.hash_eq_ok.2 ⟨b, hb, hkeccak⟩, State.hash_eq_ok.2 ⟨b', hb', rfl⟩]
  intro i j _ _ x hx y hy b b' hb hb' hkeccak
  have hsame : x = y → b = b' := by
    rintro rfl
    exact Except.ok.inj (hb.symm.trans hb')
  have hhash := heq hb hb' hkeccak
  rcases List.mem_cons.1 hx with rfl | hx
  · rcases List.mem_cons.1 hy with rfl | hy
    · exact hsame rfl
    · rw [List.mem_singleton.1 hy] at hhash
      exact absurd hhash hne
  · rw [List.mem_singleton.1 hx] at hhash hsame
    rcases List.mem_cons.1 hy with rfl | hy
    · exact absurd hhash.symm hne
    · exact hsame (List.mem_singleton.1 hy).symm

end Sample

namespace VirtualFund
open Sample

/-- Alice is done, so Bob has had the guarantee in the ledger to the left -/
theorem virtual_funding_bob :
    ∃ o ∈ (run (Parties.step Crypto.plain) (Parties.start theirObjectives) funding 2).held,
      HoldsGuarantee Crypto.plain 0 virtualState (theirObjectives 2) .left o := by
  obtain ⟨hadmissible, hdone⟩ := funding_completed
  have hdistinct : ∀ i j : Fin 3, addresses i = addresses j → i = j := by decide +kernel
  have hinj : Function.Injective addresses := fun i j => hdistinct i j
  have hasset : OneAsset virtualState.outcome 0 := by
    refine ⟨List.cons_ne_nil _ _, fun x hx => ?_⟩
    rw [List.mem_singleton.1 hx]
  obtain ⟨o, ho, hheld⟩ := virtual_funding_safe signCorrect_plain hinj their_opened
    (fun _ _ => rfl) (fun _ _ => hasset) (fun i a c _ hc => their_ledgers_valid i a c hc)
    collisionless_virtual hadmissible (show aliceAndBob 0 by decide) hdone
    (show aliceAndBob 2 by decide)
  exact ⟨o, ho, hheld .left (show (2 : Nat) ≠ 0 by decide)⟩

end VirtualFund

end Nitro
