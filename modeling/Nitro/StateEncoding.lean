import Nitro.Lib.AbiInjective
import Nitro.State

/-!
# What the encoding of a state says

The amounts of an outcome are packed as `uint256`s, everything else of a state is in its encoding as
it is.

* `Allocation.shell`, `Exit.shell`   what is left without the amounts;
* `State.Below n`                    the slices of a state are shorter than `n`;
* `Exit.alike`                       any two outcomes are encoded as values of one type;
* `State.encode_inj`                 **states with one encoding agree but for the amounts**.
-/

set_option linter.unusedSectionVars false

namespace Nitro
open Go

/-! ## outcomes without their amounts -/

def Allocation.shell (a : Allocation) : Allocation := { a with amount := none }

def SingleAssetExit.shell (e : SingleAssetExit) : SingleAssetExit :=
  { e with allocations := e.allocations.map Allocation.shell }

def Exit.shell (o : Exit) : Exit := o.map SingleAssetExit.shell

structure SingleAssetExit.Below (n : Nat) (e : SingleAssetExit) : Prop where
  metadata : e.metadata.length < n
  allocations : e.allocations.length < n
  each : ∀ a ∈ e.allocations, a.metadata.length < n

structure Exit.Below (n : Nat) (o : Exit) : Prop where
  exits : o.length < n
  each : ∀ e ∈ o, e.Below n

structure State.Below (n : Nat) (s : State) : Prop where
  appData : s.appData.length < n
  outcome : s.outcome.Below n

theorem SingleAssetExit.Below.mono {n m : Nat} {e : SingleAssetExit} (h : e.Below n) (hnm : n ≤ m) :
    e.Below m :=
  ⟨h.metadata.trans_le hnm, h.allocations.trans_le hnm, fun a ha => (h.each a ha).trans_le hnm⟩

theorem State.Below.mono {n m : Nat} {s : State} (h : s.Below n) (hnm : n ≤ m) : s.Below m :=
  ⟨h.appData.trans_le hnm, h.outcome.exits.trans_le hnm, fun e he => (h.outcome.each e he).mono hnm⟩

/-! ## values of one type -/

theorem Allocation.alike {a b : Allocation} {v w : Abi.Val} (hv : a.toVal = .ok v)
    (hw : b.toVal = .ok w) (ha : a.metadata.length < 2 ^ 256) (hb : b.metadata.length < 2 ^ 256) :
    v.Alike w := by
  obtain ⟨n, -, hv⟩ := Res.bind_eq_ok.1 hv
  obtain ⟨m, -, hw⟩ := Res.bind_eq_ok.1 hw
  cases hv
  cases hw
  refine .tuple rfl fun i v w hi hi' => ?_
  match i with
  | 0 => cases hi; cases hi'; exact .word _ _
  | 1 => cases hi; cases hi'; exact .word _ _
  | 2 => cases hi; cases hi'; exact .word _ _
  | 3 => cases hi; cases hi'; exact .bytes ha hb
  | i + 4 => cases hi

theorem SingleAssetExit.alike {e f : SingleAssetExit} {v w : Abi.Val} (hv : e.toVal = .ok v)
    (hw : f.toVal = .ok w) (he : e.Below (2 ^ 256)) (hf : f.Below (2 ^ 256)) : v.Alike w := by
  obtain ⟨vs, hvs, hv⟩ := Res.bind_eq_ok.1 hv
  obtain ⟨ws, hws, hw⟩ := Res.bind_eq_ok.1 hw
  cases hv
  cases hw
  have hlen := (Res.mapM_forall₂.1 hvs).length_eq
  have hlen' := (Res.mapM_forall₂.1 hws).length_eq
  refine .tuple rfl fun i v w hi hi' => ?_
  match i with
  | 0 => cases hi; cases hi'; exact .word _ _
  | 1 => cases hi; cases hi'; exact .bytes he.metadata hf.metadata
  | 2 =>
    cases hi
    cases hi'
    refine .array (hlen ▸ he.allocations) (hlen' ▸ hf.allocations) ?_
    intro v hv w hw
    obtain ⟨a, ha, hav⟩ := Res.exists_of_mem_mapM hvs hv
    obtain ⟨b, hb, hbw⟩ := Res.exists_of_mem_mapM hws hw
    exact Allocation.alike hav hbw (he.each a ha) (hf.each b hb)
  | i + 3 => cases hi

theorem Exit.alike {o p : Exit} {v w : Abi.Val} (hv : o.toVal = .ok v) (hw : p.toVal = .ok w)
    (ho : o.Below (2 ^ 256)) (hp : p.Below (2 ^ 256)) : v.Alike w := by
  obtain ⟨vs, hvs, hv⟩ := Res.bind_eq_ok.1 hv
  obtain ⟨ws, hws, hw⟩ := Res.bind_eq_ok.1 hw
  cases hv
  cases hw
  have hlen := (Res.mapM_forall₂.1 hvs).length_eq
  have hlen' := (Res.mapM_forall₂.1 hws).length_eq
  refine .array (hlen ▸ ho.exits) (hlen' ▸ hp.exits) fun v hv w hw => ?_
  obtain ⟨e, he, hev⟩ := Res.exists_of_mem_mapM hvs hv
  obtain ⟨f, hf, hfw⟩ := Res.exists_of_mem_mapM hws hw
  exact SingleAssetExit.alike hev hfw (ho.each e he) (hp.each f hf)

/-! ## values determine outcomes -/

theorem Allocation.shell_eq {a b : Allocation} {v : Abi.Val} (ha : a.toVal = .ok v)
    (hb : b.toVal = .ok v) : a.shell = b.shell := by
  obtain ⟨n, -, ha⟩ := Res.bind_eq_ok.1 ha
  obtain ⟨m, -, hb⟩ := Res.bind_eq_ok.1 hb
  cases ha
  have hb := Except.ok.inj hb
  simp only [Abi.Val.tuple.injEq, List.cons.injEq, Abi.Val.word.injEq, Abi.Val.bytes.injEq,
    Abi.Val.uint, and_true] at hb
  obtain ⟨hdestination, -, htype, hmetadata⟩ := hb
  have htype : b.allocationType = a.allocationType := by
    have hnat := congrArg BitVec.toNat htype
    have ha := a.allocationType.toNat_lt
    have hb := b.allocationType.toNat_lt
    rw [BitVec.toNat_ofNat, BitVec.toNat_ofNat, Nat.mod_eq_of_lt (by omega),
      Nat.mod_eq_of_lt (by omega)] at hnat
    exact UInt8.toNat_inj.1 hnat
  unfold Allocation.shell
  rw [hdestination, htype, hmetadata]

theorem SingleAssetExit.shell_eq {e f : SingleAssetExit} {v : Abi.Val} (he : e.toVal = .ok v)
    (hf : f.toVal = .ok v) : e.shell = f.shell := by
  obtain ⟨vs, hvs, he⟩ := Res.bind_eq_ok.1 he
  obtain ⟨ws, hws, hf⟩ := Res.bind_eq_ok.1 hf
  cases he
  have hf := Except.ok.inj hf
  simp only [Abi.Val.tuple.injEq, List.cons.injEq, Abi.Val.word.injEq, Abi.Val.bytes.injEq,
    Abi.Val.array.injEq, and_true] at hf
  obtain ⟨hasset, hmetadata, rfl⟩ := hf
  have hasset : f.asset = e.asset := by
    have hnat := congrArg (BitVec.setWidth 160) hasset
    rwa [BitVec.setWidth_setWidth_of_le _ (by decide), BitVec.setWidth_setWidth_of_le _ (by decide),
      BitVec.setWidth_eq, BitVec.setWidth_eq] at hnat
  unfold SingleAssetExit.shell
  rw [hasset, hmetadata, Res.map_eq_of_mapM (fun a _ b _ v => Allocation.shell_eq) hvs hws]

theorem Exit.shell_eq {o p : Exit} {v : Abi.Val} (ho : o.toVal = .ok v) (hp : p.toVal = .ok v) :
    o.shell = p.shell := by
  obtain ⟨vs, hvs, ho⟩ := Res.bind_eq_ok.1 ho
  obtain ⟨ws, hws, hp⟩ := Res.bind_eq_ok.1 hp
  cases ho
  cases hp
  exact Res.map_eq_of_mapM (fun a _ b _ v => SingleAssetExit.shell_eq) hvs hws

/-! ## states -/

/-- **the encoding of a state determines its data but for the amounts** -/
theorem State.encode_inj {cr : Crypto} {s r : State} {encoded : Bytes} (hs : s.Below (2 ^ 256))
    (hr : r.Below (2 ^ 256)) (hes : s.encode cr = .ok encoded) (her : r.encode cr = .ok encoded) :
    s.appData = r.appData ∧ s.outcome.shell = r.outcome.shell ∧ s.turnNum = r.turnNum ∧
      s.isFinal = r.isFinal := by
  obtain ⟨id, -, hes⟩ := Res.bind_eq_ok.1 hes
  obtain ⟨v, hv, hes⟩ := Res.bind_eq_ok.1 hes
  obtain ⟨id', -, her⟩ := Res.bind_eq_ok.1 her
  obtain ⟨w, hw, her⟩ := Res.bind_eq_ok.1 her
  have hencoded := Except.ok.inj (hes.trans her.symm)
  have hsame := Abi.encode_injective (.cons (.word _ _) (.cons (.bytes hs.appData
    hr.appData) (.cons (Exit.alike hv hw hs.outcome hr.outcome) (.cons (.word _ _)
      (.cons (.word _ _) .nil))))) hencoded
  simp only [List.cons.injEq, Abi.Val.bytes.injEq, and_true] at hsame
  obtain ⟨-, happ, rfl, hturn, hfinal⟩ := hsame
  refine ⟨happ, Exit.shell_eq hv hw, turnNumVal_injective (Abi.Val.word.inj hturn), ?_⟩
  cases hsf : s.isFinal <;> cases hrf : r.isFinal
  · rfl
  · rw [hsf, hrf] at hfinal
    exact absurd (Abi.Val.word.inj hfinal) (by decide)
  · rw [hsf, hrf] at hfinal
    exact absurd (Abi.Val.word.inj hfinal) (by decide)
  · rfl

end Nitro
