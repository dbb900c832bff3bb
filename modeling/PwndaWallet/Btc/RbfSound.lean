import Mathlib.Order.Bounds.Basic
import PwndaWallet.Btc.Rbf
import PwndaWallet.Lib.Result

/-!
# What a speed-up sends

The size bound holds for every signature, the minimum fee is the least by both rules, and a replacement that
is sent differs from the original in its fee and in one output of the wallet only.
-/

namespace Btc

open Wire

/-! ## Sizes -/

/-- An input of a kind, signed: some signature and a compressed public key where the kind has them. -/
inductive SignedInput : BtcSpendKind → TxIn → Prop
  | p2wpkh {i : TxIn} {sig pub : Bytes} : IsSignature sig → pub.length = COMPRESSED_PUBKEY_BYTES → i.script = [] →
      i.witness = [sig, pub] → SignedInput .p2wpkh i
  | p2sh_p2wpkh {i : TxIn} {sig pub : Bytes} : IsSignature sig → pub.length = COMPRESSED_PUBKEY_BYTES →
      i.script.length = P2SH_P2WPKH_SCRIPTSIG_BYTES → i.witness = [sig, pub] → SignedInput .p2sh_p2wpkh i
  | p2pkh {i : TxIn} {sig pub : Bytes} : IsSignature sig → pub.length = COMPRESSED_PUBKEY_BYTES →
      i.script = UInt8.ofNat sig.length :: sig ++ UInt8.ofNat pub.length :: pub → i.witness = [] →
      SignedInput .p2pkh i

namespace SignedInput

variable {kind : BtcSpendKind} {i : TxIn}

theorem baseSize_le (h : SignedInput kind i) : i.baseSize ≤ kind.base := by
  have hscript : varSlice i.script ≤ varintBytes kind.scriptSig + kind.scriptSig := by
    apply varSlice_le
    cases h with
    | p2wpkh _ _ hscript => simp [hscript]
    | p2sh_p2wpkh _ _ hscript => exact Nat.le_of_eq hscript
    | p2pkh hsig hpub hscript =>
      have hlen := hsig.length_le
      rw [hscript]
      simp only [List.cons_append, List.length_cons, List.length_append, hpub, BtcSpendKind.scriptSig, MAX_SIGNATURE_BYTES]
      omega
  rw [TxIn.baseSize, BtcSpendKind.base]
  omega

theorem witnessSize_le (h : SignedInput kind i) : i.witnessSize ≤ kind.witness := by
  have hstack {sig pub : Bytes} (hsig : IsSignature sig) (hpub : pub.length = COMPRESSED_PUBKEY_BYTES)
      (hwitness : i.witness = [sig, pub]) : i.witnessSize ≤ 1 + 1 + MAX_SIGNATURE_BYTES + 1 + COMPRESSED_PUBKEY_BYTES := by
    have hsig' := varSlice_le hsig.length_le
    have hpub' := varSlice_le (Nat.le_of_eq hpub)
    rw [TxIn.witnessSize, hwitness]
    simp only [List.length_cons, List.length_nil, List.map_cons, List.map_nil, List.sum_cons, List.sum_nil]
    have hcount : varintBytes (0 + 1 + 1) = 1 := rfl
    have hone : varintBytes 72 = 1 := rfl
    have hone' : varintBytes COMPRESSED_PUBKEY_BYTES = 1 := rfl
    have hmax : MAX_SIGNATURE_BYTES = 72 := rfl
    omega
  cases h with
  | p2wpkh hsig hpub _ hwitness => exact hstack hsig hpub hwitness
  | p2sh_p2wpkh hsig hpub _ hwitness => exact hstack hsig hpub hwitness
  | p2pkh _ _ _ hwitness => simp [TxIn.witnessSize, hwitness, BtcSpendKind.witness, varintBytes]

theorem segwit (h : SignedInput kind i) (hwitness : i.witness ≠ []) : kind.segwit = true := by
  cases h with
  | p2wpkh => rfl
  | p2sh_p2wpkh => rfl
  | p2pkh _ _ _ hnil => exact absurd hnil hwitness

end SignedInput

theorem sums_le {kinds : List BtcSpendKind} {ins : List TxIn} (h : List.Forall₂ SignedInput kinds ins) :
    (ins.map TxIn.baseSize).sum ≤ (kinds.map BtcSpendKind.base).sum ∧
      (ins.map TxIn.witnessSize).sum ≤ (kinds.map BtcSpendKind.witness).sum ∧
      ((ins.any fun i => i.witness != []) = true → kinds.any BtcSpendKind.segwit = true) := by
  induction h with
  | nil => simp
  | cons hinput _ ih =>
    obtain ⟨hbase, hwitness, hsegwit⟩ := ih
    have hbase' := hinput.baseSize_le
    have hwitness' := hinput.witnessSize_le
    simp only [List.map_cons, List.sum_cons, List.any_cons, Bool.or_eq_true, bne_iff_ne]
    refine ⟨by omega, by omega, ?_⟩
    rintro (hself | hrest)
    · exact .inl (hinput.segwit hself)
    · exact .inr (hsegwit hrest)

theorem virtualSize_le {kinds : List BtcSpendKind} {tx : Transaction} (h : List.Forall₂ SignedInput kinds tx.ins) :
    tx.virtualSize ≤ signedVsizeUpperBound kinds (tx.outs.map fun o => o.script.length) := by
  obtain ⟨hbase, hwitness, hsegwit⟩ := sums_le h
  have houts : (tx.outs.map fun o => 8 + varSlice o.script).sum =
      ((tx.outs.map fun o => o.script.length).map fun len => 8 + varintBytes len + len).sum := by
    simp [varSlice, Function.comp_def, Nat.add_assoc]
  have hlen := h.length_eq
  have hweight : tx.weight ≤ (4 + varintBytes kinds.length + varintBytes (tx.outs.map fun o => o.script.length).length + 4 +
      (kinds.map BtcSpendKind.base).sum +
      ((tx.outs.map fun o => o.script.length).map fun len => 8 + varintBytes len + len).sum) * 4 +
      if kinds.any BtcSpendKind.segwit then 2 + (kinds.map BtcSpendKind.witness).sum else 0 := by
    rw [← houts, Transaction.weight, Transaction.baseSize, List.length_map, hlen]
    by_cases hhas : tx.hasWitnesses = true
    · rw [if_pos hhas, if_pos (hsegwit hhas)]
      omega
    · rw [if_neg hhas]
      omega
  exact Nat.div_le_div_right (Nat.add_le_add_right hweight 3)

/-! ## The minimum -/

theorem minimumReplacementFeeSat_isLeast {originalFeeSat originalVsize replacementVsize : Nat} (h : 0 < originalVsize) :
    IsLeast {fee | originalFeeSat + replacementVsize ≤ fee ∧ originalFeeSat * replacementVsize < fee * originalVsize}
      (minimumReplacementFeeSat originalFeeSat originalVsize replacementVsize) := by
  have hrate (fee : Nat) : originalFeeSat * replacementVsize < fee * originalVsize ↔
      originalFeeSat * replacementVsize / originalVsize + 1 ≤ fee := by
    rw [Nat.succ_le_iff, Nat.div_lt_iff_lt_mul h]
  have hrelay : INCREMENTAL_RELAY_SAT_PER_VB * replacementVsize = replacementVsize := Nat.one_mul _
  constructor
  · rw [Set.mem_ofPred_eq, hrate, minimumReplacementFeeSat, hrelay]
    exact ⟨Nat.le_max_left _ _, Nat.le_max_right _ _⟩
  · intro fee hfee
    rw [Set.mem_ofPred_eq, hrate] at hfee
    rw [minimumReplacementFeeSat, hrelay]
    exact Nat.max_le.2 hfee

/-! ## The plan -/

/-- The plan pays the minimum at least, and all of it is taken from the change. -/
structure BtcFeeBumpPlan.Fair (p : BtcFeeBumpPlan) (a : BumpArgs) : Prop where
  sized : 0 < a.originalVsize
  minimum : minimumReplacementFeeSat a.originalFeeSat a.originalVsize a.replacementVsize ≤ p.newFeeSat
  extra : a.originalFeeSat + p.extraFeeSat = p.newFeeSat
  change : p.newChangeSat = (a.changeValueSat : Int) - p.extraFeeSat
  dust : (a.dustSat : Int) < p.newChangeSat

theorem planBtcFeeBump_spec {a : BumpArgs} {p : BtcFeeBumpPlan} (h : planBtcFeeBump a = .ok (.ok p)) : p.Fair a := by
  rw [planBtcFeeBump] at h
  cases husable : a.unusable with
  | some kv => simp [husable] at h
  | none =>
    have hsized : 0 < a.originalVsize := by
      rw [BumpArgs.unusable, List.find?_eq_none] at husable
      have hvsize := husable ("originalVsize", a.originalVsize) (by simp)
      apply Nat.pos_of_ne_zero
      intro hzero
      simp [hzero] at hvsize
    rw [husable] at h
    have hmin : a.originalFeeSat ≤ minimumReplacementFeeSat a.originalFeeSat a.originalVsize a.replacementVsize :=
      Nat.le_trans (Nat.le_add_right _ _) (Nat.le_max_left _ _)
    have hmax := Nat.le_max_left (minimumReplacementFeeSat a.originalFeeSat a.originalVsize a.replacementVsize) a.targetFee
    simp only at h
    by_cases hdust : (a.changeValueSat : Int) -
        ((max (minimumReplacementFeeSat a.originalFeeSat a.originalVsize a.replacementVsize) a.targetFee -
          a.originalFeeSat : Nat) : Int) ≤ a.dustSat
    · rw [if_pos hdust] at h
      cases h
    · rw [if_neg hdust] at h
      cases h
      exact ⟨hsized, hmax, by simp only; omega, rfl, Int.not_le.1 hdust⟩

theorem pickChange_spec {outputs : List Output} {own : String → Option OwnBtcKey} {o : Output}
    (h : pickChange outputs own = .ok o) : o ∈ outputs ∧ (o.address.bind own).isSome = true := by
  rw [pickChange] at h
  by_cases hfew : outputs.length < 2
  · simp [hfew] at h
  · rw [if_neg hfew] at h
    have hmine {mine : List Output} (hmem : o ∈ mine) (heq : (outputs.filter fun o => (o.address.bind own).isSome) = mine) :
        o ∈ outputs ∧ (o.address.bind own).isSome = true := by
      rw [← heq, List.mem_filter] at hmem
      exact hmem
    split at h
    · cases h
    · rename_i o' heq
      cases h
      exact hmine (by simp) heq
    · split at h
      · rename_i o' hchain
        cases h
        refine hmine ?_ rfl
        have hmem : o ∈ (outputs.filter fun o => (o.address.bind own).isSome).filter fun o =>
            (o.address.bind own).any fun key => key.chainIndex == some 1 := by simp [hchain]
        exact (List.mem_filter.1 hmem).1
      · cases h

/-! ## What was read -/

/-- The fee that a transaction pays when it spends these outputs. -/
def feeOf (prevouts : List Prevout) (tx : Transaction) : Int := (prevouts.map Prevout.valueSat).sum - tx.outSum

namespace World

variable {w : World}

theorem readPrevouts_length {id : String} {ins : List TxIn} {vin : List EsploraVin} {n : Nat} {prevouts : List Prevout}
    (hlen : vin.length = ins.length) (h : w.readPrevouts id n ins vin = .ok prevouts) : prevouts.length = ins.length := by
  induction ins generalizing vin n prevouts with
  | nil =>
    cases h
    rfl
  | cons input ins ih =>
    cases vin with
    | nil => cases hlen
    | cons v vin =>
      rw [readPrevouts] at h
      cases hread : w.readPrevout id n input v with
      | error e => simp [hread, Except.bind] at h
      | ok p =>
        cases hrest : w.readPrevouts id (n + 1) ins vin with
        | error e => simp [hread, hrest, Except.bind, Except.map] at h
        | ok rest =>
          simp only [hread, hrest, Except.bind, Except.map, Except.ok.injEq] at h
          rw [← h, List.length_cons, List.length_cons, ih (Nat.succ.inj hlen) hrest]

/-- The numbers of a transaction that was read are its own. -/
structure Read (view : BtcTxOnChain) : Prop where
  prevouts : view.prevouts.length = view.tx.ins.length
  fee : (view.feeSat : Int) = feeOf view.prevouts view.tx
  vsize : view.vsize = view.tx.virtualSize

theorem viewOf_spec {id : String} {json : EsploraTxJson} {tx : Transaction} {view : BtcTxOnChain}
    (h : w.viewOf id json tx = .ok view) : Read view := by
  rw [viewOf] at h
  by_cases hlen : json.vin.length = tx.ins.length
  · rw [if_neg (not_not.2 hlen)] at h
    cases hprevouts : w.readPrevouts id 0 tx.ins json.vin with
    | error e => simp [hprevouts, Except.bind] at h
    | ok prevouts =>
      simp only [hprevouts, Except.bind] at h
      by_cases hcover : (prevouts.map Prevout.valueSat).sum < tx.outSum ∨
          ¬ isSafeInteger ((prevouts.map Prevout.valueSat).sum - tx.outSum) = true
      · rw [if_pos hcover] at h
        cases h
      · rw [if_neg hcover] at h
        split at h
        · cases h
        · cases h
          refine ⟨readPrevouts_length hlen hprevouts, ?_, rfl⟩
          have hle := Nat.le_of_not_lt fun hlt => hcover (.inl hlt)
          simp only [feeOf]
          omega
  · simp [hlen] at h

theorem readBtcTx_spec {txid : String} {view : BtcTxOnChain} (h : w.readBtcTx txid = .ok (some view)) : Read view := by
  rw [readBtcTx] at h
  cases hnorm : w.normTxid txid with
  | error e => simp [hnorm, Except.bind] at h
  | ok id =>
    cases hjson : w.txJson id with
    | error e => simp [hnorm, hjson, Except.bind] at h
    | ok json =>
      cases json with
      | none => simp [hnorm, hjson, Except.bind] at h
      | some json =>
        cases hraw : w.fetchRawBtcTx id with
        | error e => simp [hnorm, hjson, hraw, Except.bind] at h
        | ok tx =>
          cases tx with
          | none => simp [hnorm, hjson, hraw, Except.bind] at h
          | some tx =>
            cases hview : w.viewOf id json tx with
            | error e => simp [hnorm, hjson, hraw, hview, Except.bind, Except.map] at h
            | ok view' =>
              simp only [hnorm, hjson, hraw, hview, Except.bind, Except.map, Except.ok.injEq, Option.some.injEq] at h
              rw [← h]
              exact viewOf_spec hview

/-! ## What was prepared -/

/-- The quote takes the extra fee from one output of the wallet. -/
structure Priced (w : World) (p : Prepared) : Prop where
  change : ∃ o, p.view.tx.outs[p.quote.change.vout]? = some o ∧ ((w.addressOf o.script).bind p.keys).isSome = true ∧
    p.quote.change.afterSat = (o.value : Int) - p.quote.extraFeeSat
  extra : p.view.feeSat + p.quote.extraFeeSat = p.quote.newFeeSat
  dust : (BTC_DUST_SAT : Int) < p.quote.change.afterSat

theorem price_spec {view : BtcTxOnChain} {keys : String → Option OwnBtcKey} {kinds : List BtcSpendKind}
    {targetRate : Option Rat} {p : Prepared} (h : w.price view keys kinds targetRate = .ok p) :
    Priced w p ∧ p.view = view ∧ p.keys = keys := by
  simp only [price] at h
  cases hpick : pickChange (view.tx.outs.zipIdx.map fun o => ⟨o.2, w.addressOf o.1.script, o.1.value⟩) keys with
  | error e => simp [hpick, Except.bind] at h
  | ok o =>
    obtain ⟨hmem, hown⟩ := pickChange_spec hpick
    obtain ⟨⟨out, n⟩, hout, rfl⟩ := List.mem_map.1 hmem
    simp only [hpick, Except.bind] at h
    split at h
    · cases h
    · cases h
    · rename_i plan hplan
      cases h
      have hfair := planBtcFeeBump_spec hplan
      refine ⟨⟨⟨out, ?_, hown, hfair.change⟩, hfair.extra, hfair.dust⟩, rfl, rfl⟩
      exact List.mk_mem_zipIdx_iff_getElem?.1 hout

theorem examine_spec {args : SpeedUpArgs} {view : BtcTxOnChain} {p : Prepared} (h : w.examine args view = .ok p) :
    Priced w p ∧ p.view = view ∧ ∃ addresses, w.findOwnBtcKeys addresses = .ok p.keys := by
  rw [examine] at h
  split at h
  · cases h
  split at h
  · cases h
  cases hown : w.isOwnBtcTx view.txid with
  | error e => simp [hown, Except.bind, Rust.mapError_error] at h
  | ok own =>
    simp only [hown, Except.bind, Rust.mapError_ok] at h
    split at h
    · cases h
    cases hkeys : w.findOwnBtcKeys ((view.prevouts.map Prevout.address ++
        view.tx.outs.map fun o => w.addressOf o.script).filterMap id) with
    | error e =>
      rw [hkeys] at h
      cases h
    | ok keys =>
      rw [hkeys, Rust.mapError_ok] at h
      simp only at h
      split at h
      · cases h
      cases hspent : w.readSpentOutputs view.txid view.tx.outs.length with
      | error e => simp [hspent, Rust.mapError_error] at h
      | ok spent =>
        rw [hspent, Rust.mapError_ok] at h
        cases spent with
        | cons e es => cases h
        | nil =>
          obtain ⟨hpriced, hview, rfl⟩ := price_spec h
          exact ⟨hpriced, hview, _, hkeys⟩

theorem prepare_spec {args : SpeedUpArgs} {p : Prepared} (h : w.prepare args = .ok p) :
    Priced w p ∧ w.readBtcTx args.txid = .ok (some p.view) ∧ ∃ addresses, w.findOwnBtcKeys addresses = .ok p.keys := by
  rw [prepare] at h
  split at h
  · cases h
  cases hread : w.readBtcTx args.txid with
  | error e => simp [hread, Except.bind, Rust.mapError_error] at h
  | ok view =>
    cases view with
    | none => simp [hread, Except.bind, Rust.mapError_ok] at h
    | some view =>
      simp only [hread, Except.bind, Rust.mapError_ok] at h
      obtain ⟨hpriced, rfl, hkeys⟩ := examine_spec h
      exact ⟨hpriced, rfl, hkeys⟩

/-! ## What was checked -/

def coinOf (w : World) (i : TxIn) : List Char × Nat := (w.txidOfInput i.hash, i.index)

theorem checkInputs_spec {n : Nat} {ins as : List TxIn} (hlen : ins.length = as.length)
    (h : w.checkInputs n ins as = .ok ()) :
    ins.map w.coinOf = as.map w.coinOf ∧ ∀ i ∈ ins, i.sequence = BTC_RBF_SEQUENCE := by
  induction ins generalizing n as with
  | nil =>
    cases as with
    | nil => simp
    | cons a as => cases hlen
  | cons i ins ih =>
    cases as with
    | nil => cases hlen
    | cons a as =>
      rw [checkInputs] at h
      by_cases hcoin : w.txidOfInput i.hash ≠ w.txidOfInput a.hash ∨ i.index ≠ a.index
      · rw [if_pos hcoin] at h
        cases h
      · rw [if_neg hcoin] at h
        by_cases hseq : i.sequence ≠ BTC_RBF_SEQUENCE
        · rw [if_pos hseq] at h
          cases h
        · rw [if_neg hseq] at h
          obtain ⟨hcoins, hseqs⟩ := ih (Nat.succ.inj hlen) h
          simp only [not_or, not_not] at hcoin hseq
          refine ⟨?_, List.forall_mem_cons.2 ⟨hseq, hseqs⟩⟩
          rw [List.map_cons, List.map_cons, hcoins, coinOf, coinOf, hcoin.1, hcoin.2]

theorem checkOutputs_spec {change : Change} {n : Nat} {outs as : List TxOut} (hlen : outs.length = as.length)
    (h : checkOutputs change n outs as = .ok ()) (j : Nat) (o a : TxOut) (ho : outs[j]? = some o) (ha : as[j]? = some a) :
    o.script = a.script ∧ (o.value : Int) = if n + j = change.vout then change.afterSat else a.value := by
  induction outs generalizing n as j with
  | nil => simp at ho
  | cons o' outs ih =>
    cases as with
    | nil => cases hlen
    | cons a' as =>
      rw [checkOutputs] at h
      by_cases hscript : o'.script ≠ a'.script
      · rw [if_pos hscript] at h
        cases h
      · rw [if_neg hscript] at h
        by_cases hvalue : (o'.value : Int) ≠ if n = change.vout then change.afterSat else a'.value
        · rw [if_pos hvalue] at h
          cases h
        · rw [if_neg hvalue] at h
          cases j with
          | zero =>
            simp only [List.getElem?_cons_zero, Option.some.injEq] at ho ha
            subst ho ha
            exact ⟨not_not.1 hscript, not_not.1 hvalue⟩
          | succ j =>
            rw [List.getElem?_cons_succ] at ho ha
            have hrest := ih (Nat.succ.inj hlen) h j ho ha
            rwa [Nat.add_right_comm] at hrest

theorem replacementRuleViolation_spec {a : SignedSizes} (h : replacementRuleViolation a = none) :
    a.originalFeeSat + a.replacementVsize ≤ a.replacementFeeSat ∧
      a.originalFeeSat * a.replacementVsize < a.replacementFeeSat * a.originalVsize := by
  have hrelay : INCREMENTAL_RELAY_SAT_PER_VB * a.replacementVsize = a.replacementVsize := Nat.one_mul _
  rw [replacementRuleViolation] at h
  simp only [hrelay] at h
  by_cases hmore : a.originalFeeSat < a.replacementFeeSat
  · rw [if_neg (not_not.2 hmore)] at h
    by_cases hadds : a.replacementFeeSat - a.originalFeeSat < a.replacementVsize
    · simp [hadds] at h
    · rw [if_neg hadds] at h
      by_cases hrate : a.replacementFeeSat * a.originalVsize ≤ a.originalFeeSat * a.replacementVsize
      · simp [hrate] at h
      · exact ⟨by omega, Nat.lt_of_not_le hrate⟩
  · simp [hmore] at h

theorem checkFee_spec {originalFeeSat originalVsize originalOutSum : Nat} {tx : Transaction} {quote : BtcSpeedUpQuote}
    (h : checkFee originalFeeSat originalVsize originalOutSum tx quote = .ok ()) :
    (originalFeeSat : Int) + (originalOutSum - tx.outSum) = quote.newFeeSat ∧
      originalFeeSat + tx.virtualSize ≤ quote.newFeeSat ∧
      originalFeeSat * tx.virtualSize < quote.newFeeSat * originalVsize := by
  rw [checkFee] at h
  by_cases hfee : (originalFeeSat : Int) + (originalOutSum - tx.outSum) = quote.newFeeSat
  · rw [if_neg (not_not.2 hfee), hfee] at h
    split at h
    · cases h
    · split at h
      · cases h
      · rename_i hnone
        exact ⟨hfee, replacementRuleViolation_spec hnone⟩
  · rw [if_pos hfee] at h
    cases h

/-- A replacement that raises the fee out of the wallet's own change. -/
structure RaisesOwnChange (w : World) (own : String → Option OwnBtcKey) (view : BtcTxOnChain) (expectFeeSat : Rat)
    (tx : Transaction) : Prop where
  inputs : tx.ins.map w.coinOf = view.tx.ins.map w.coinOf
  replaceable : ∀ i ∈ tx.ins, i.sequence = BTC_RBF_SEQUENCE
  scripts : tx.outs.map TxOut.script = view.tx.outs.map TxOut.script
  change : ∃ (vout : Nat) (old new : TxOut), view.tx.outs[vout]? = some old ∧ tx.outs[vout]? = some new ∧
    ((w.addressOf old.script).bind own).isSome = true ∧
    (new.value : Int) + (feeOf view.prevouts tx - feeOf view.prevouts view.tx) = old.value ∧
    BTC_DUST_SAT < new.value ∧ ∀ j, j ≠ vout → tx.outs[j]? = view.tx.outs[j]?
  confirmed : ((feeOf view.prevouts tx : Int) : Rat) = expectFeeSat
  relay : feeOf view.prevouts view.tx + tx.virtualSize ≤ feeOf view.prevouts tx
  rate : feeOf view.prevouts view.tx * tx.virtualSize < feeOf view.prevouts tx * view.tx.virtualSize

theorem assertReplacementOf_spec {p : Prepared} {tx : Transaction} (hread : Read p.view) (hpriced : Priced w p)
    (h : w.assertReplacementOf p.view tx p.quote = .ok ()) :
    RaisesOwnChange w p.keys p.view p.quote.newFeeSat tx := by
  rw [assertReplacementOf] at h
  by_cases hins : tx.ins.length ≠ p.view.tx.ins.length
  · rw [if_pos hins] at h
    cases h
  rw [if_neg hins] at h
  cases hinputs : w.checkInputs 0 tx.ins p.view.tx.ins with
  | error e => simp [hinputs, Except.bind] at h
  | ok u =>
  simp only [hinputs, Except.bind] at h
  by_cases houts : tx.outs.length ≠ p.view.tx.outs.length
  · rw [if_pos houts] at h
    cases h
  rw [if_neg houts] at h
  cases houtputs : checkOutputs p.quote.change 0 tx.outs p.view.tx.outs with
  | error e => simp [houtputs] at h
  | ok u' =>
  simp only [houtputs] at h
  obtain ⟨hcoins, hseqs⟩ := checkInputs_spec (not_not.1 hins) hinputs
  have hout := checkOutputs_spec (not_not.1 houts) houtputs
  obtain ⟨hfee, hrelay, hrate⟩ := checkFee_spec h
  have hnew : feeOf p.view.prevouts tx = p.quote.newFeeSat := by
    have hold := hread.fee
    simp only [feeOf] at hold ⊢
    omega
  have hlen := not_not.1 houts
  have hpair (j : Nat) : tx.outs[j]? = none ∧ p.view.tx.outs[j]? = none ∨
      ∃ o a, tx.outs[j]? = some o ∧ p.view.tx.outs[j]? = some a := by
    by_cases hj : j < tx.outs.length
    · exact .inr ⟨_, _, List.getElem?_eq_getElem hj, List.getElem?_eq_getElem (hlen ▸ hj)⟩
    · exact .inl ⟨List.getElem?_eq_none (Nat.le_of_not_lt hj), List.getElem?_eq_none (by omega)⟩
  refine ⟨hcoins, hseqs, ?_, ?_, by rw [hnew]; simp, ?_, ?_⟩
  · apply List.ext_getElem?
    intro j
    rw [List.getElem?_map, List.getElem?_map]
    rcases hpair j with ⟨ho, ha⟩ | ⟨o, a, ho, ha⟩
    · rw [ho, ha]
    · rw [ho, ha, Option.map_some, Option.map_some, (hout j o a ho ha).1]
  · obtain ⟨old, hold, hown, hafter⟩ := hpriced.change
    rcases hpair p.quote.change.vout with ⟨-, ha⟩ | ⟨new, a, hnew', ha⟩
    · rw [hold] at ha
      cases ha
    · obtain rfl : old = a := by
        rw [hold] at ha
        exact Option.some.inj ha
      have hvalue := (hout _ new old hnew' ha).2
      rw [Nat.zero_add, if_pos rfl] at hvalue
      have hextra := hpriced.extra
      have hdust := hpriced.dust
      have hfee' := hread.fee
      refine ⟨_, old, new, hold, hnew', hown, by rw [hnew]; omega, by omega, fun j hj => ?_⟩
      rcases hpair j with ⟨ho, ha⟩ | ⟨o, a, ho, ha⟩
      · rw [ho, ha]
      · obtain ⟨hscript, hsame⟩ := hout j o a ho ha
        rw [Nat.zero_add, if_neg hj] at hsame
        have heq : o = a := by
          cases o
          cases a
          simp only [TxOut.mk.injEq] at hscript hsame ⊢
          exact ⟨hscript, Int.ofNat.inj hsame⟩
        rw [ho, ha, heq]
  · rw [hnew, ← hread.fee]
    omega
  · rw [hnew, ← hread.fee, ← hread.vsize]
    exact_mod_cast hrate

theorem mem_sent {inFlight : List String} {args : SpeedUpArgs} {tx : Transaction}
    (h : tx ∈ (w.speedUpBtcTransaction inFlight args).sent) : ∃ p, w.prepare args = .ok p ∧
      (p.quote.newFeeSat : Rat) = args.expectFeeSat ∧ w.buildReplacement p = .ok tx ∧
      w.assertReplacementOf p.view tx p.quote = .ok () := by
  have hnone {stop : Stop} : tx ∉ (Outcome.unsent stop).sent := List.not_mem_nil
  rw [speedUpBtcTransaction] at h
  split at h
  · exact absurd h hnone
  split at h
  · exact absurd h hnone
  split at h
  · exact absurd h hnone
  rename_i p hprepare
  split at h
  · exact absurd h hnone
  rename_i hfee
  split at h
  · exact absurd h hnone
  rename_i tx' hbuilt
  rw [send] at h
  split at h
  · exact absurd h hnone
  rename_i hchecked
  have hsame : tx = tx' := by
    split at h <;> exact List.mem_singleton.1 h
  exact ⟨p, hprepare, not_not.1 hfee, hsame ▸ hbuilt, hsame ▸ hchecked⟩

end World

/-! ## The result -/

/-- What is asked of a speed-up, of the size bound and of the minimum. -/
structure SpeedUpLaw (w : World) (inFlight : List String) (args : SpeedUpArgs) : Prop where
  once : (w.speedUpBtcTransaction inFlight args).sent.length ≤ 1
  raises (tx : Transaction) : tx ∈ (w.speedUpBtcTransaction inFlight args).sent →
    ∃ view own, w.readBtcTx args.txid = .ok (some view) ∧ (∃ addresses, w.findOwnBtcKeys addresses = .ok own) ∧
      World.RaisesOwnChange w own view args.expectFeeSat tx
  size (kinds : List BtcSpendKind) (tx : Transaction) : List.Forall₂ SignedInput kinds tx.ins →
    tx.virtualSize ≤ signedVsizeUpperBound kinds (tx.outs.map fun o => o.script.length)
  minimum (originalFeeSat originalVsize replacementVsize : Nat) : 0 < originalVsize →
    IsLeast {fee | originalFeeSat + replacementVsize ≤ fee ∧ originalFeeSat * replacementVsize < fee * originalVsize}
      (minimumReplacementFeeSat originalFeeSat originalVsize replacementVsize)

/-- One input of 100000 sat, a payment of 60000 and a change of 39859; the fast tier asks for 3 sat/vB. -/
def sampleWorld : World :=
  let tx : Transaction := ⟨2, [⟨[], 0, BTC_RBF_SEQUENCE, [], []⟩], [⟨[1], 60000⟩, ⟨[2], 39859⟩], 0⟩
  { normTxid := .ok
    txidOfInput := fun _ => []
    lower := id
    addressOf := fun script => if script = [1] then some "payee" else some "own"
    txReplacementOf := fun _ => none
    txJson := fun _ => .ok (some ⟨[⟨none, some 0, some (some [2], 100000)⟩], none, false⟩)
    fetchRawBtcTx := fun _ => .ok (some tx)
    outspends := fun _ => .ok (some [none, none])
    isOwnBtcTx := fun _ => .ok true
    findOwnBtcKeys := fun _ => .ok fun a => if a = "own" then some ⟨a, .p2wpkh, some 1⟩ else none
    signed := fun u => .ok ⟨u.version, tx.ins, u.outputs, u.locktime⟩
    broadcastBtc := fun _ => .ok "hash" }

example : ((sampleWorld.speedUpBtcTransaction [] ⟨"tx", some 3, 297⟩).sent.map fun tx => tx.outs.map TxOut.value) =
    [[60000, 39703]] := by decide +kernel

end Btc
