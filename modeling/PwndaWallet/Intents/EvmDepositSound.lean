import PwndaWallet.Intents.OneDepositSound
import PwndaWallet.Lib.Trace

/-!
# The EVM deposit that is broadcast

Bytes reach the broadcaster only if they move what the quote says to where it says, and only after the
checks of the quote and of the balances.
-/

namespace Intents

open Js Tasks

variable {env : Env} {input : ExecuteIntentsInput} {h h' : List (Ev TradeOp.Ans)}

/-! ## What the bytes move -/

/-- The calldata is the selector of `transfer(address,uint256)`, the address, and the amount. -/
def IsTransferCall (env : Env) (calldata address : String) (amount : Nat) : Prop :=
  ∃ recipient amountWord : List Char,
    bareHex env calldata = transferSelector ++ (List.replicate 24 '0' ++ recipient) ++ amountWord ∧
    recipient.length = 40 ∧ amountWord.length = 64 ∧
    String.ofList ('0' :: 'x' :: recipient) = env.loc.toLowerCase address ∧ digits 16 amountWord = some amount

theorem isTransferCall_of_parse {calldata address : String} {amount : Nat}
    (hp : parseErc20TransferCalldata env calldata = some (env.loc.toLowerCase address, amount)) :
    IsTransferCall env calldata address amount := by
  unfold parseErc20TransferCalldata at hp
  dsimp only at hp
  split at hp
  · cases hp
  rename_i hshape
  rw [not_or, not_or, not_not, not_not, not_not] at hshape
  obtain ⟨hlength, hselector, hzeros⟩ := hshape
  obtain ⟨n, hn, heq⟩ := Option.map_eq_some_iff.1 hp
  obtain ⟨haddress, rfl⟩ := Prod.mk.inj heq
  refine ⟨(((bareHex env calldata).drop 8).take 64).drop 24, (bareHex env calldata).drop 72, ?_, ?_, ?_, haddress, hn⟩
  · have hrest : (bareHex env calldata).drop 72 = ((bareHex env calldata).drop 8).drop 64 := by rw [List.drop_drop]
    rw [hrest, ← hselector, ← hzeros, List.take_append_drop, List.append_assoc, List.take_append_drop,
      List.take_append_drop]
  · simp only [List.length_drop, List.length_take, hlength]
    decide
  · rw [List.length_drop, hlength]

/-- A transfer of the chain's own coin, or a call of the contract that transfers its token. -/
def Moves (env : Env) (tx : DecodedTx) (depositAddress : String) (amount : Nat) : Option String → Prop
  | none => env.loc.toLowerCase tx.txTo = env.loc.toLowerCase depositAddress ∧ tx.value = amount ∧
      (tx.data = "" ∨ env.loc.toLowerCase tx.data = "0x")
  | some contract => env.loc.toLowerCase tx.txTo = env.loc.toLowerCase contract ∧ tx.value = 0 ∧
      IsTransferCall env tx.data depositAddress amount

theorem moves_of_shape {tx : DecodedTx} {depositAddress : String} {amount : Nat} {contract : Option String}
    (hs : assertEvmDepositShape env tx depositAddress amount contract = .ok ()) :
    Moves env tx depositAddress amount contract := by
  unfold assertEvmDepositShape at hs
  cases contract with
  | none =>
    by_cases hright : isNativeDeposit env tx depositAddress amount = true
    · simp only [isNativeDeposit, sameText, Bool.and_eq_true, Bool.or_eq_true, beq_iff_eq, and_assoc] at hright
      exact hright
    · dsimp only at hs
      rw [if_neg hright] at hs
      cases hs
  | some contract =>
    by_cases hright : isTokenDeposit env tx contract depositAddress amount = true
    · simp only [isTokenDeposit, sameText, Bool.and_eq_true, beq_iff_eq, and_assoc] at hright
      obtain ⟨hto, hvalue, hparse⟩ := hright
      exact ⟨hto, hvalue, isTransferCall_of_parse hparse⟩
    · dsimp only at hs
      rw [if_neg hright] at hs
      cases hs

theorem moves_of_signed {raw : String} {t : EvmTransfer} {depositAddress : String} {amount : Nat}
    {contract : Option String} (hs : assertSigned env raw t depositAddress amount contract = .ok ()) :
    ∃ tx, env.decodeEvmSignedTx raw = .ok tx ∧ Moves env tx depositAddress amount contract := by
  obtain ⟨_, _, hs⟩ := Rust.ok_of_bind hs
  obtain ⟨tx, htx, hs⟩ := Rust.ok_of_bind hs
  exact ⟨tx, htx, moves_of_shape hs⟩

/-! ## What pays for it -/

/-- An RPC answered with the integer `n`. -/
def Read (h : List (Ev TradeOp.Ans)) (rpcUrls : List String) (call : EvmRpc) (n : Int) : Prop :=
  ∃ text, ⟨.evmRpc rpcUrls call, .ok text⟩ ∈ h ∧ bigInt text = some n

/-- The balances that were read cover the amount, and the gas at the price that was read. -/
def Covered (env : Env) (input : ExecuteIntentsInput) (h : List (Ev TradeOp.Ans)) (amount : Nat) (gasPriceHex : String)
    (gasLimit : Int) (contract : Option String) : Prop :=
  ∃ rpcUrls gasPrice native, ⟨.evmRpc rpcUrls .gasPrice, .ok gasPriceHex⟩ ∈ h ∧ bigInt gasPriceHex = some gasPrice ∧
    Read h rpcUrls (.getBalance input.sourceAddress) native ∧
    match contract with
    | none => amount + gasLimit * gasPrice ≤ native
    | some contract => gasLimit * gasPrice ≤ native ∧ ∃ data token,
        buildErc20BalanceOfCalldata env input.sourceAddress = .ok data ∧ Read h rpcUrls (.call contract data) token ∧
        amount ≤ token

theorem Read.mono {rpcUrls : List String} {call : EvmRpc} {n : Int} (hr : Read h rpcUrls call n) (hh : h ⊆ h') :
    Read h' rpcUrls call n := by
  obtain ⟨text, hmem, hn⟩ := hr
  exact ⟨text, hh hmem, hn⟩

theorem Covered.mono {amount : Nat} {gasPriceHex : String} {gasLimit : Int} {contract : Option String}
    (hc : Covered env input h amount gasPriceHex gasLimit contract) (hh : h ⊆ h') :
    Covered env input h' amount gasPriceHex gasLimit contract := by
  obtain ⟨rpcUrls, gasPrice, native, hprice, hnumber, hnative, hcase⟩ := hc
  refine ⟨rpcUrls, gasPrice, native, hh hprice, hnumber, hnative.mono hh, ?_⟩
  cases contract with
  | none => exact hcase
  | some contract =>
    obtain ⟨hgas, data, token, hdata, htoken, hle⟩ := hcase
    exact ⟨hgas, data, token, hdata, htoken.mono hh, hle⟩

theorem gasLimitOf_nonneg (isErc20 : Bool) (estimate : Except TradeError Int) : 0 ≤ gasLimitOf isErc20 estimate := by
  unfold gasLimitOf
  split
  · split
    · cases isErc20 <;> decide
    · omega
  · cases isErc20 <;> decide

theorem fundable_of_assert {value gasCost balance : Int} (hf : assertTxFundable value gasCost balance = .ok ()) :
    value + gasCost ≤ balance := by
  unfold assertTxFundable at hf
  split at hf
  · cases hf
  · omega

/-! ## The deposit -/

/-- The bytes are the deposit of the checked quote `q`, as the session's signer returned them. -/
structure QuotedDeposit (env : Env) (input : ExecuteIntentsInput) (h : List (Ev TradeOp.Ans)) (raw : String)
    (q : Cleared) : Prop where
  kind : q.coin.chainKind = .evm
  checked : ∃ now : Int, ⟨.now, now⟩ ∈ h ∧ Checked env input now q
  moves : ∃ tx, env.decodeEvmSignedTx raw = .ok tx ∧ Moves env tx q.deposit.depositAddress q.amount q.contract
  funded : ∃ tx, ⟨.signEvm input.sessionId tx (input.account.getD 0) (input.index.getD 0), .ok raw⟩ ∈ h ∧
    Covered env input h q.amount tx.gasPrice tx.gas q.contract

/-- Only a quoted deposit is broadcast. -/
def broadcastsQuoted (env : Env) (input : ExecuteIntentsInput) : TradeOp → List (Ev TradeOp.Ans) → Prop
  | .broadcastEvmVerified _ raw, h => ∃ q, QuotedDeposit env input h raw q
  | _, _ => True

abbrev Walks (env : Env) (input : ExecuteIntentsInput) {α : Type} (p : TradeProg α)
    (P : α → List (Ev TradeOp.Ans) → Prop) (h : List (Ev TradeOp.Ans)) : Prop :=
  Safe (.hist (broadcastsQuoted env input)) p (OnOk P) h

theorem walks_settleEvm (rpcUrls : List String) (localHash : String) (r : Except String String) :
    Walks env input (settleEvm env rpcUrls localHash r) (fun _ _ => True) h := by
  cases r with
  | ok hash => exact Safe.ite (fun _ => safe_ret.2 trivial) fun _ => safe_fail.2 trivial
  | error msg =>
    refine safe_call_hist.2 ⟨trivial, fun known => Safe.ite (fun _ => safe_ret.2 trivial) fun _ => ?_⟩
    exact Safe.ite (fun _ => safe_fail.2 trivial) fun _ => safe_fail.2 trivial

theorem orThrow_ok {α : Type} {r : Except String α} {a : α} (hr : orThrow r = .ok a) : r = .ok a := by
  cases r with
  | ok x => exact congrArg Except.ok (Except.ok.inj hr)
  | error m => cases hr

theorem walks_signAndBroadcastEvm {q : Cleared} {now : Int} (hkind : q.coin.chainKind = .evm)
    (hnow : ⟨.now, now⟩ ∈ h) (hq : Checked env input now q) {rpcUrls : List String} {chainId : Nat} {t : EvmTransfer} {gasPriceHex : String} {gasLimit : Int}
    (hgas : 0 ≤ gasLimit) (hc : Covered env input h q.amount gasPriceHex gasLimit q.contract) :
    Walks env input (signAndBroadcastEvm env input rpcUrls chainId t gasPriceHex gasLimit q.deposit.depositAddress
      q.amount q.contract) (fun _ _ => True) h := by
  refine safe_await_hist trivial fun _ nonce _ => Safe.ofExcept_bind (fun _ _ => trivial) fun _ _ => ?_
  refine safe_await_hist trivial fun _ _ _ => safe_await_hist trivial fun r raw hraw => ?_
  obtain rfl := orThrow_ok hraw
  refine Safe.ofExcept_bind (fun _ _ => trivial) fun _ hsigned => safe_await_hist trivial fun _ _ _ => ?_
  refine safe_call_hist.2 ⟨⟨q, hkind, ⟨now, ?_, hq⟩, moves_of_signed hsigned, ?_⟩, fun _ => walks_settleEvm ..⟩
  · simp [hnow]
  · refine ⟨_, List.mem_append_left _ (List.mem_append_right _ (List.mem_singleton_self _)), ?_⟩
    rw [Int.toNat_of_nonneg hgas]
    exact hc.mono fun e he => by simp [he]

theorem walks_evmNumber (rpcUrls : List String) (call : EvmRpc) :
    Walks env input (evmNumber rpcUrls call) (fun n h' => h ⊆ h' ∧ Read h' rpcUrls call n) h := by
  refine safe_request_hist trivial fun r => ?_
  cases r with
  | error e => exact trivial
  | ok text =>
    cases hn : bigInt text with
    | none =>
      dsimp only
      rw [hn]
      exact trivial
    | some n =>
      dsimp only
      rw [hn]
      exact ⟨List.subset_append_left .., text, List.mem_append_right _ (List.mem_singleton_self _), hn⟩

theorem walks_estimate (rpcUrls : List String) (t : EvmTransfer) (isErc20 : Bool) :
    Walks env input (estimateDepositGasLimit rpcUrls input.sourceAddress t isErc20)
      (fun gasLimit h' => h ⊆ h' ∧ 0 ≤ gasLimit) h := by
  refine safe_attempt_hist trivial fun r => safe_ret.2 ⟨List.subset_append_left .., gasLimitOf_nonneg ..⟩

theorem walks_tokenBalance (rpcUrls : List String) (contract : Option String) :
    Walks env input (tokenBalance env rpcUrls input.sourceAddress contract) (fun token h' => h ⊆ h' ∧
      ∀ c, contract = some c → ∃ data, buildErc20BalanceOfCalldata env input.sourceAddress = .ok data ∧
        Read h' rpcUrls (.call c data) token) h := by
  cases contract with
  | none => exact safe_ret.2 ⟨List.Subset.refl _, nofun⟩
  | some c =>
    refine Safe.ofExcept_bind (fun _ _ => trivial) fun data hdata => (walks_evmNumber rpcUrls (.call c data)).mono ?_
    rintro (e | token) h' hr
    · exact trivial
    · refine ⟨hr.1, fun c' hc => ?_⟩
      cases hc
      exact ⟨data, hdata, hr.2⟩

theorem covered_of_funded {rpcUrls : List String} {amount : Nat} {contract : Option String} {gasPriceHex : String}
    {native token gasPrice gasLimit : Int} (hprice : ⟨.evmRpc rpcUrls .gasPrice, .ok gasPriceHex⟩ ∈ h)
    (hnumber : bigInt gasPriceHex = some gasPrice) (hnative : Read h rpcUrls (.getBalance input.sourceAddress) native)
    (htoken : ∀ c, contract = some c → ∃ data, buildErc20BalanceOfCalldata env input.sourceAddress = .ok data ∧
      Read h rpcUrls (.call c data) token)
    (hf : assertFunded contract.isSome amount native token (gasLimit * gasPrice) = .ok ()) :
    Covered env input h amount gasPriceHex gasLimit contract := by
  refine ⟨rpcUrls, gasPrice, native, hprice, hnumber, hnative, ?_⟩
  obtain ⟨_, _, hf⟩ := Rust.ok_of_bind hf
  cases contract with
  | none => exact fundable_of_assert hf
  | some c =>
    obtain ⟨_, hgas, hf⟩ := Rust.ok_of_bind hf
    obtain ⟨data, hdata, hread⟩ := htoken c rfl
    have hgas := fundable_of_assert hgas
    have hle := fundable_of_assert hf
    exact ⟨by omega, data, token, hdata, hread, by omega⟩

theorem walks_depositEvm {q : Cleared} {now : Int} (hkind : q.coin.chainKind = .evm) (hnow : ⟨.now, now⟩ ∈ h)
    (hq : Checked env input now q) :
    Walks env input (depositEvm env input q.coin q.deposit.depositAddress q.amount q.contract) (fun _ _ => True) h := by
  refine Safe.orFail_bind (fun _ => trivial) fun chainId _ => Safe.ensure_bind (fun _ => trivial) fun _ => ?_
  refine Safe.ofExcept_bind (fun _ _ => trivial) fun t _ => safe_await_hist trivial fun r gasPriceHex hr => ?_
  obtain rfl := orThrow_ok hr
  refine Safe.bind_ok (walks_evmNumber _ _) fun native h₁ ⟨hh₁, hnative⟩ => ?_
  refine Safe.orFail_bind (fun _ => trivial) fun gasPrice hprice => ?_
  refine Safe.bind_ok (walks_estimate _ _ _) fun gasLimit h₂ ⟨hh₂, hgas⟩ => ?_
  refine Safe.bind_ok (walks_tokenBalance _ _) fun token h₃ ⟨hh₃, htoken⟩ => ?_
  refine Safe.ofExcept_bind (fun _ _ => trivial) fun _ hfunded => ?_
  have hsub : h ⊆ h₃ := fun e he => hh₃ (hh₂ (hh₁ (List.mem_append_left _ he)))
  refine walks_signAndBroadcastEvm hkind (hsub hnow) hq hgas (covered_of_funded ?_ hprice
    (hnative.mono fun e he => hh₃ (hh₂ he)) htoken hfunded)
  exact hh₃ (hh₂ (hh₁ (List.mem_append_right _ (List.mem_singleton_self _))))

theorem walks_depositArm {q : Cleared} {now : Int} (hnow : ⟨.now, now⟩ ∈ h) (hq : Checked env input now q) :
    Walks env input (depositArm env input q) (fun _ _ => True) h := by
  by_cases hkind : q.coin.chainKind = .evm
  · unfold depositArm
    rw [hkind]
    exact Safe.bind_ok (walks_depositEvm hkind hnow hq) fun _ _ _ => safe_ret.2 trivial
  · -- the other arms broadcast no Ethereum transaction
    refine (safe_of_uses (whole_depositArm env input q).uses (fun o h ho => ?_) h).mono fun r _ _ => by
      cases r <;> exact trivial
    cases o with
    | broadcastEvmVerified _ _ =>
      rcases ho with ho | ⟨_, ho, _⟩
      · revert ho hkind
        cases q.coin.chainKind <;> simp [TradeOp.arm, ChainKind.arm]
      · cases ho
    | _ => exact trivial

/-- What a call does after the deposit, and where it fails, is no broadcast. -/
def NoBroadcast (o : TradeOp) : Prop := ∀ rpcUrls raw, o ≠ .broadcastEvmVerified rpcUrls raw

theorem uses_afterDeposit (input : ExecuteIntentsInput) (trade : IntentsTrade) :
    Uses NoBroadcast (afterDeposit input trade) := by
  refine .bind (.ask nofun) fun _ => .bind (.ite ⟨nofun, fun _ => trivial⟩ trivial) fun _ => ?_
  exact .bind ⟨nofun, fun _ => trivial⟩ fun _ => .bind (.request nofun) fun _ => trivial

theorem uses_recordFailure (deposit : DepositRef) (e : TradeError) : Uses NoBroadcast (recordFailure deposit e) := by
  cases e <;> first | exact .ask nofun | exact trivial

theorem walks_of_uses {α : Type} {p : TradeProg α} (hp : Uses NoBroadcast p) :
    Walks env input p (fun _ _ => True) h := by
  refine (safe_of_uses hp (fun o h ho => ?_) h).mono fun r _ _ => by cases r <;> exact trivial
  cases o with
  | broadcastEvmVerified rpcUrls raw => exact absurd rfl (ho rpcUrls raw)
  | _ => exact trivial

theorem walks_executeIntentsTrade (env : Env) (input : ExecuteIntentsInput) :
    Walks env input (executeIntentsTrade env input) (fun _ _ => True) [] := by
  refine safe_call_hist.2 ⟨trivial, fun now => Safe.ofExcept_bind (fun _ _ => trivial) fun q hq => ?_⟩
  refine safe_await_hist trivial fun _ _ _ => safe_await_hist trivial fun _ _ _ => Safe.bind (Safe.attempt ?_)
  refine (walks_depositArm (List.mem_append_left _ (List.mem_append_left _ (List.mem_singleton_self _)))
    (checked_of_clear hq)).mono fun r h' _ => ?_
  cases r with
  | ok sent => exact walks_of_uses (uses_afterDeposit ..)
  | error e => exact Safe.bind_ok (walks_of_uses (uses_recordFailure ..)) fun _ _ _ => safe_fail.2 trivial

/-- Whatever the RPCs and the signer answer, the bytes that are broadcast are a deposit of the quote, which was
checked before, and which the balances that were read pay for. -/
theorem broadcast_is_quoted {tr : List (Ev TradeOp.Ans)} {rpcUrls : List String} {raw : String}
    {k : Except String String → TradeProg IntentsTrade}
    (hr : (executeIntentsTrade env input).Run tr (.call (.broadcastEvmVerified rpcUrls raw) k)) :
    ∃ q, QuotedDeposit env input tr raw q :=
  must_of_run (walks_executeIntentsTrade env input) hr

/-- The bytes are about to be broadcast. -/
def broadcasts (raw : String) : TradeOp → Bool
  | .broadcastEvmVerified _ r => r == raw
  | _ => false

theorem run_to_broadcast {f : Nat → Outside} {n : Nat} {raw : String}
    (hn : ((executeIntentsTrade env input).feed f n).next.any (broadcasts raw) = true) :
    ∃ rpcUrls k, (executeIntentsTrade env input).Run ((executeIntentsTrade env input).fed f n)
      (.call (.broadcastEvmVerified rpcUrls raw) k) := by
  have hrun := (executeIntentsTrade env input).run_feed f n
  obtain ⟨o, ho, hb⟩ := (Option.any_eq_true _ _).1 hn
  obtain ⟨k, hk⟩ := Prog.call_of_next ho
  rw [hk] at hrun
  cases o with
  | broadcastEvmVerified rpcUrls r =>
    obtain rfl : r = raw := by simpa [broadcasts] using hb
    exact ⟨rpcUrls, k, hrun⟩
  | _ => cases hb

theorem broadcast_is_quoted_sample : ∃ tr q, QuotedDeposit sampleEnv sampleInput tr sampleRaw q := by
  obtain ⟨rpcUrls, k, hrun⟩ :=
    @run_to_broadcast sampleEnv sampleInput (fun _ => sampleOutside) 10 sampleRaw (by decide +kernel)
  exact ⟨_, broadcast_is_quoted hrun⟩

/-- A quote for one per cent and one wei more than 1 ETH. -/
def driftInput : ExecuteIntentsInput :=
  { sampleInput with intentsQuote := { sampleInput.intentsQuote with amountIn := some "1010000000000000001" } }

def driftDecoded (raw : String) : Except TradeError DecodedTx :=
  if raw = sampleRaw then .ok { txTo := sampleDeposit, value := 1010000000000000001, data := "0x" }
  else .error (.plain "unsupported transaction type")

def driftEnv : Env := { sampleEnv with decodeEvmSignedTx := driftDecoded }

/-- The amounts are compared as doubles: more than one per cent can pass. -/
theorem not_within_one_percent : ¬ ∀ (env : Env) (input : ExecuteIntentsInput) (tr : List (Ev TradeOp.Ans))
    (rpcUrls : List String) (raw : String) (k : Except String String → TradeProg IntentsTrade),
    (executeIntentsTrade env input).Run tr (.call (.broadcastEvmVerified rpcUrls raw) k) →
    ∀ text amount, input.intentsQuote.amountIn = some text → atomicStringToBigInt text = .ok amount →
      |(amount : ℚ) - input.userIntendedAtomic| ≤ input.userIntendedAtomic / 100 := by
  intro hall
  obtain ⟨rpcUrls, k, hrun⟩ :=
    @run_to_broadcast driftEnv driftInput (fun _ => sampleOutside) 10 sampleRaw (by decide +kernel)
  have hamount : atomicStringToBigInt "1010000000000000001" = .ok 1010000000000000001 := by decide +kernel
  have hclose := hall driftEnv driftInput _ rpcUrls sampleRaw k hrun _ _ rfl hamount
  norm_num [driftInput, sampleInput] at hclose

end Intents
