import PwndaWallet.Intents.QuoteSound
import PwndaWallet.Intents.Session

/-!
# One quote, one deposit

Over all interleavings of a session's trades, one call at most gets past the claim of a deposit, and the
record of a deposit that was sent, or may have been, stays as its call left it.
-/

namespace Intents

open Js Tasks Tasks.Books

variable {env : Env}

/-! ## Keys -/

theorem key_of_pair {d d' : DepositRef} (h : d.pair = d'.pair) : intentsDepositKey d = intentsDepositKey d' := by
  obtain ⟨ha, hm⟩ := Prod.mk.inj h
  rw [intentsDepositKey, intentsDepositKey, ha, hm]

/-- At one address the memo tells deposits apart. -/
theorem memo_of_key {d d' : DepositRef} (ha : normalAddress d.depositAddress = normalAddress d'.depositAddress)
    (hk : intentsDepositKey d = intentsDepositKey d') : memoOf d.depositMemo = memoOf d'.depositMemo := by
  have hne : ∀ (a m : String), a ≠ a ++ "\x00memo\x00" ++ m := fun a m h => by
    have hlist := congrArg String.toList h
    simp at hlist
  rw [intentsDepositKey, intentsDepositKey, ha] at hk
  cases hm : memoOf d.depositMemo with
  | none =>
    cases hm' : memoOf d'.depositMemo with
    | none => rfl
    | some m' => simp only [hm, hm'] at hk; exact absurd hk (hne _ _)
  | some m =>
    cases hm' : memoOf d'.depositMemo with
    | none => simp only [hm, hm'] at hk; exact absurd hk.symm (hne _ _)
    | some m' =>
      simp only [hm, hm'] at hk
      have hlist := congrArg String.toList hk
      simp only [String.toList_append, List.append_assoc, List.append_cancel_left_eq, String.toList_inj] at hlist
      rw [hlist]

@[simp] theorem memoOf_memoOf (memo : Option String) : memoOf (memoOf memo) = memoOf memo := truthy_truthy memo

/-! ## What the deposit itself asks -/

/-- The ways to deposit. -/
inductive Arm where
  | evm
  | solana
  | near
  | stellar
  | sui
  /-- not signed by the swap session, or a UTXO chain -/
  | other

def ChainKind.arm : ChainKind → Arm
  | .evm => .evm
  | .solana => .solana
  | .near => .near
  | .stellar => .stellar
  | .sui => .sui
  | _ => .other

/-- The arm that a step of a deposit belongs to. -/
def TradeOp.arm : TradeOp → Option Arm
  | .evmRpc .. | .signEvm .. | .broadcastEvmVerified .. | .evmTransactionKnown .. => some .evm
  | .getSolanaAddress _ | .solanaBlockhash _ | .solanaTokenAccount .. | .signSolana .. | .broadcastSolana ..
  | .solanaSignatureSeen .. => some .solana
  | .getNearAddress _ | .viewNearAccount .. | .nearAccessKey .. | .nearStatus _ | .nep141State .. | .signNear ..
  | .broadcastNear .. | .waitForNearOutcome .. => some .near
  | .getStellarAddress _ | .horizonSequence .. | .horizonAccountExists _ | .signStellar .. | .submitStellar .. => some .stellar
  | .getSuiAddress _ | .buildSuiTransfer .. | .signSui .. | .executeSui .. => some .sui
  | .accountSendAvailable .. | .getUtxoAddress .. | .executeUtxoTransfer .. | .adapterSend _ => some .other
  | _ => none

/-- A step of the arm, or a phase that is shown on the way. -/
def InArm (arm : Arm) (o : TradeOp) : Prop := o.arm = some arm ∨ ∃ p, o = .phase p ∧ p ≠ .pending

variable {arm : Arm}

theorem whole_phase {p : Phase} (hp : p ≠ .pending) : Whole (InArm arm) (phase p) := .request (.inr ⟨p, rfl, hp⟩)

theorem whole_ask {ε α : Type} {o : TradeOp} {judge : o.Ans → Except ε α} (h : o.arm = some arm) :
    Whole (InArm arm) (.request o judge : Prog TradeOp TradeOp.Ans ε α) := .request (.inl h)

theorem whole_settleEvm (env : Env) (rpcUrls : List String) (localHash : String) (r : Except String String) :
    Whole (InArm .evm) (settleEvm env rpcUrls localHash r) := by
  cases r with
  | ok hash => exact .ite trivial trivial
  | error msg => exact ⟨.inl rfl, fun _ => .ite trivial (.ite trivial trivial)⟩

theorem whole_depositEvm (env : Env) (input : ExecuteIntentsInput) (coin : SwapCoinMeta) (depositAddress : String)
    (amount : Nat) (contract : Option String) :
    Whole (InArm .evm) (depositEvm env input coin depositAddress amount contract) := by
  refine .bind (.orFail ..) fun _ => .bind (.ensure ..) fun _ => .bind (.ofExcept _) fun _ => ?_
  refine .bind (whole_ask rfl) fun _ => .bind (whole_ask rfl) fun _ => .bind (.orFail ..) fun _ => ?_
  refine .bind (.bind (.attempt (whole_ask rfl)) fun _ => trivial) fun _ => .bind ?_ fun _ => ?_
  · cases contract with
    | none => exact trivial
    | some c => exact .bind (.ofExcept _) fun _ => whole_ask rfl
  refine .bind (.ofExcept _) fun _ => .bind (whole_ask rfl) fun _ => .bind (.ofExcept _) fun _ => ?_
  refine .bind (whole_phase nofun) fun _ => .bind (whole_ask rfl) fun _ => .bind (.ofExcept _) fun _ => ?_
  exact .bind (whole_phase nofun) fun _ => ⟨.inl rfl, fun _ => whole_settleEvm ..⟩

theorem whole_signAndBroadcastSolana (env : Env) (sessionId rpcUrl : String) (message : SolanaMessage) :
    Whole (InArm .solana) (signAndBroadcastSolana env sessionId rpcUrl message) := by
  refine .bind (whole_ask rfl) fun signed => .bind (.ensure ..) fun _ => ⟨.inl rfl, fun r => ?_⟩
  cases r with
  | ok hash => exact trivial
  | error msg => exact ⟨.inl rfl, fun _ => .ite trivial (.ite trivial trivial)⟩

theorem whole_executeSplTransfer (env : Env) (sessionId fromAddress depositAddress mint amountAtomic rpcUrl : String) :
    Whole (InArm .solana) (executeSplTransfer env sessionId fromAddress depositAddress mint amountAtomic rpcUrl) := by
  refine .bind (.ensure ..) fun _ => .bind (.ofExcept _) fun _ => .bind (.ensure ..) fun _ => ?_
  exact .bind (whole_ask rfl) fun _ => .bind (whole_ask rfl) fun _ => whole_signAndBroadcastSolana ..

theorem whole_executeSolanaTransfer (env : Env) (sessionId fromAddress depositAddress amountAtomic rpcUrl : String) :
    Whole (InArm .solana) (executeSolanaTransfer env sessionId fromAddress depositAddress amountAtomic rpcUrl) := by
  refine .bind (.ensure ..) fun _ => .bind (.ofExcept _) fun _ => .bind (.ensure ..) fun _ => ?_
  exact .bind (whole_ask rfl) fun _ => whole_signAndBroadcastSolana ..

theorem whole_signSubmitAndConfirmNear (env : Env) (sessionId : String) (rpcUrls : List String) (tx : NearTransaction) :
    Whole (InArm .near) (signSubmitAndConfirmNear env sessionId rpcUrls tx) := by
  have hany : ∀ signature urls, Whole (InArm .near) (broadcastNearAny tx signature urls) := by
    intro signature urls
    induction urls with
    | nil => exact trivial
    | cons url urls ih => exact ⟨.inl rfl, fun r => by cases r <;> first | exact ih | exact trivial⟩
  refine .bind (whole_ask rfl) fun _ => .bind (.ensure ..) fun _ => .bind (hany _ _) fun _ => ⟨.inl rfl, fun r => ?_⟩
  cases r <;> exact trivial

theorem whole_fetchNearNonce (rpcUrls : List String) (accountId publicKey : String) :
    Whole (InArm .near) (fetchNearNonce rpcUrls accountId publicKey) :=
  .bind (whole_ask rfl) fun _ => .bind (.orFail ..) fun _ => .bind (whole_ask rfl) fun _ => trivial

theorem whole_executeNearNativeTransfer (env : Env)
    (sessionId fromAccountId fromPublicKey depositAddress amountAtomic rpcUrl : String) : Whole (InArm .near)
      (executeNearNativeTransfer env sessionId fromAccountId fromPublicKey depositAddress amountAtomic rpcUrl) := by
  refine .bind (.ofExcept _) fun receiver => .bind (.ofExcept _) fun _ => .bind (.ensure ..) fun _ => .bind ?_ fun _ => ?_
  · exact .ite trivial (.bind (whole_ask rfl) fun _ => .ensure ..)
  · exact .bind (whole_fetchNearNonce ..) fun _ => whole_signSubmitAndConfirmNear ..

theorem whole_executeNearTokenTransfer (env : Env)
    (sessionId fromAccountId fromPublicKey tokenContract receiver amountAtomic rpcUrl : String) : Whole (InArm .near)
      (executeNearTokenTransfer env sessionId fromAccountId fromPublicKey tokenContract receiver amountAtomic rpcUrl) := by
  refine .bind (.ofExcept _) fun _ => .bind (.ofExcept _) fun _ => .bind (.ensure ..) fun _ => ?_
  refine .bind (.ensure ..) fun _ => .bind (whole_ask rfl) fun _ => .bind (.ofExcept _) fun _ => ?_
  exact .bind (whole_fetchNearNonce ..) fun _ => whole_signSubmitAndConfirmNear ..

theorem whole_executeStellarTransfer (env : Env) (sessionId fromAddress depositAddress : String) (stroops : Nat)
    (memo : String) : Whole (InArm .stellar) (executeStellarTransfer env sessionId fromAddress depositAddress stroops memo) := by
  refine .bind (.ensure ..) fun _ => .bind (.ensure ..) fun _ => .bind (.ensure ..) fun _ => ?_
  refine .bind (whole_ask rfl) fun _ => .bind (.ensure ..) fun _ => .bind (whole_ask rfl) fun _ => ?_
  refine .bind (whole_ask rfl) fun _ => .bind (.ensure ..) fun _ => .bind (whole_ask rfl) fun _ => ?_
  exact .bind (.ensure ..) fun _ => .bind (.ensure ..) fun _ => whole_ask rfl

theorem whole_executeSuiTransfer (env : Env) (sessionId fromAddress depositAddress : String) (mist : Nat) :
    Whole (InArm .sui) (executeSuiTransfer env sessionId fromAddress depositAddress mist) := by
  refine .bind (.ofExcept _) fun _ => .bind (.ensure ..) fun _ => .bind (whole_ask rfl) fun _ => ?_
  refine .bind (.ensure ..) fun _ => .bind (whole_ask rfl) fun _ => .bind (whole_ask rfl) fun _ => ?_
  exact .bind (.ensure ..) fun _ => whole_ask rfl

theorem whole_shown {transfer : TradeProg String} (h : Whole (InArm arm) transfer) : Whole (InArm arm) (shown transfer) :=
  .bind (whole_phase nofun) fun _ => .bind h fun _ => .bind (whole_phase nofun) fun _ => trivial

theorem whole_sourceOr {input : ExecuteIntentsInput} {derive : TradeProg String} (h : Whole (InArm arm) derive) :
    Whole (InArm arm) (sourceOr input derive) := .ite trivial h

theorem whole_depositAdapter (send : AdapterSend) : Whole (InArm .other) (depositAdapter send) :=
  .bind (whole_phase nofun) fun _ => .bind (whole_ask rfl) fun _ => .bind (whole_phase nofun) fun _ => trivial

theorem whole_depositUtxo (env : Env) (input : ExecuteIntentsInput) (q : Cleared) :
    Whole (InArm .other) (depositUtxo env input q) := by
  refine .bind ?_ fun account => ?_
  · unfold accountCovered
    split
    · exact .bind (whole_ask rfl) fun _ => trivial
    · exact trivial
  · cases account with
    | some account => exact whole_depositAdapter _
    | none =>
      refine .bind (.ensure ..) fun _ => .bind (.ofExcept _) fun _ => .bind ?_ fun _ => ?_
      · exact whole_sourceOr (whole_ask rfl)
      · exact whole_shown (whole_ask rfl)

theorem whole_depositPrivateKey (env : Env) (input : ExecuteIntentsInput) (q : Cleared) :
    Whole (InArm .other) (depositPrivateKey env input q) := by
  unfold depositPrivateKey
  split
  · exact .ite trivial (.ite trivial (whole_depositAdapter _))
  · exact trivial
  · exact trivial

theorem whole_depositCardano (input : ExecuteIntentsInput) (q : Cleared) :
    Whole (InArm .other) (depositCardano input q) := by
  unfold depositCardano
  split
  · exact whole_depositAdapter _
  · exact trivial

/-- A deposit takes the steps of its chain's arm only. -/
theorem whole_depositArm (env : Env) (input : ExecuteIntentsInput) (q : Cleared) :
    Whole (InArm q.coin.chainKind.arm) (depositArm env input q) := by
  cases hkind : q.coin.chainKind <;> simp only [depositArm, hkind]
  case evm => exact .bind (whole_depositEvm ..) fun _ => trivial
  case solana =>
    refine .bind (.ofExcept _) fun _ => .bind (whole_sourceOr (whole_ask rfl)) fun _ => whole_shown ?_
    cases q.contract with
    | some mint => exact whole_executeSplTransfer ..
    | none => exact whole_executeSolanaTransfer ..
  case near =>
    refine .bind (.ofExcept _) fun _ => .bind (whole_ask rfl) fun _ => .bind (whole_sourceOr trivial) fun _ => whole_shown ?_
    cases q.contract with
    | some contract => exact whole_executeNearTokenTransfer ..
    | none => exact whole_executeNearNativeTransfer ..
  case stellar =>
    refine .bind (.orFail ..) fun _ => .bind (.ofExcept _) fun _ => whole_shown ?_
    exact whole_executeStellarTransfer ..
  case sui => exact .bind (.ofExcept _) fun _ => whole_shown (whole_executeSuiTransfer ..)
  case cardano => exact whole_depositCardano input q
  case btc => exact whole_depositUtxo ..
  case ltc => exact whole_depositUtxo ..
  case doge => exact whole_depositUtxo ..
  case bch => exact whole_depositUtxo ..
  case dash => exact whole_depositUtxo ..
  case xrp => exact whole_depositPrivateKey ..
  case tron => exact whole_depositPrivateKey ..
  case aptos => exact whole_depositPrivateKey ..
  all_goals exact trivial

/-! ## What a call asks -/

/-- The deposit that a quote is about. -/
def OfQuote (input : ExecuteIntentsInput) (deposit : DepositRef) : Prop :=
  truthy input.intentsQuote.depositAddress = some deposit.depositAddress ∧
    deposit.depositMemo = memoOf input.intentsQuote.depositMemo

/-- How a call that settles with `r` accounts for its deposit. -/
def Accounts (b : Book) : Except TradeError IntentsTrade → Prop
  | .ok trade => b.claimed = some trade.deposit ∧
      b.recorded = some { state := .broadcast, txHash := some trade.sourceTxHash }
  | .error e => (∀ m h, e = .outcomeUnknown m h → b.recorded = some { state := .unknown, txHash := h }) ∧
      ∀ h, b.recorded = some { state := .broadcast, txHash := h } → b.threw = true

/-- The deposit is under the claim of the call, which records one thing of it. -/
def Recordable (b : Book) (deposit : DepositRef) (patch : Patch) : Prop :=
  ∃ d, b.claimed = some d ∧ intentsDepositKey d = intentsDepositKey deposit ∧
    (b.recorded = none ∧ b.settled = none ∨ b.recorded = some patch)

/-- The deposit that a call or a retirement is for. -/
def TradeEntry.IsFor : TradeEntry → DepositRef → Prop
  | .trade input, deposit => OfQuote input deposit
  | .submit s, deposit => OfQuote s.input deposit
  | .retire retired, deposit => deposit = retired

/-- A call claims once, deposits under its claim, records its own deposit, and settles with what became
of it. -/
def allowed (e : TradeEntry) (b : Book) : TradeOp → Prop
  | .claim deposit => b = .blank ∧ e.IsFor deposit
  | .record deposit patch => e.IsFor deposit ∧
      if patch.state.isSent then Recordable b deposit patch else patch = { state := .retired, txHash := none }
  | .settled result => b.settled = none ∧ Accounts b result
  | o => o.deposits = true → b.claimed.isSome

abbrev tradeBooks : Books TradeOp TradeOp.Ans TradeEntry where
  Book := Book
  blank := .blank
  allows := allowed
  expects _ _ _ _ := True
  note := Book.note
  done _ b := b.recorded ≠ none → b.settled ≠ none

variable {e : TradeEntry} {b : Book}

theorem recordable_of_allowed {deposit : DepositRef} {patch : Patch} (ha : allowed e b (.record deposit patch))
    (hs : patch.state.isSent = true) : Recordable b deposit patch := by
  have hrec := ha.2
  rwa [if_pos hs] at hrec

theorem retired_of_allowed {deposit : DepositRef} {patch : Patch} (ha : allowed e b (.record deposit patch))
    (hs : patch.state.isSent = false) : patch = { state := .retired, txHash := none } := by
  have hpatch := ha.2
  rwa [hs, if_neg Bool.false_ne_true] at hpatch

theorem deposits_of_arm {o : TradeOp} (ho : o.arm = some arm) : o.deposits = true := by
  cases o <;> first | rfl | cases ho

theorem arm_keeps_book {o : TradeOp} (ho : InArm arm o) (hb : b.claimed.isSome) :
    allowed e b o ∧ ∀ r : o.Ans, b.note o r = b := by
  rcases ho with ho | ⟨p, rfl, hp⟩
  · have ho : o.deposits = true := deposits_of_arm ho
    cases o <;> first | exact ⟨fun _ => hb, fun _ => rfl⟩ | exact absurd ho Bool.false_ne_true
  · cases p <;> first | exact ⟨fun _ => hb, fun _ => rfl⟩ | exact absurd rfl hp

/-! ### The checks before the claim -/

/-- An error that leaves nothing unknown. -/
def Refusal (e : TradeError) : Prop := ∀ m h, e ≠ .outcomeUnknown m h

/-- A check that only refuses. -/
def Refuses {α : Type} (x : Except TradeError α) : Prop := ∀ e, x = .error e → Refusal e

theorem Refuses.ok {α : Type} (a : α) : Refuses (.ok a) := nofun

theorem Refuses.error {α : Type} {e : TradeError} (h : Refusal e) : Refuses (.error e : Except TradeError α) :=
  fun _ he => Except.error.inj he ▸ h

theorem Refuses.bind {α β : Type} {x : Except TradeError α} {f : α → Except TradeError β} (hx : Refuses x)
    (hf : ∀ a, Refuses (f a)) : Refuses (x >>= f) := by
  intro e he
  cases x with
  | ok a => exact hf a e he
  | error e' => exact hx e (Except.error.inj he ▸ rfl)

theorem Refuses.ite {α : Type} {c : Prop} [Decidable c] {x y : Except TradeError α} (hx : Refuses x)
    (hy : Refuses y) : Refuses (if c then x else y) := by
  split
  · exact hx
  · exact hy

theorem refuses_assertSourceMetaMatchesCatalog (coin : SwapCoinMeta) (catalogAsset : Option CatalogAsset) :
    Refuses (assertSourceMetaMatchesCatalog coin catalogAsset) := by
  unfold assertSourceMetaMatchesCatalog
  split
  · refine .ite (.error nofun) (.ite (.error nofun) ?_)
    split
    · exact .ok _
    · exact .ite (.ok _) (.error nofun)
    · exact .error nofun
  · exact .error nofun

theorem refuses_quotedAsset (input : ExecuteIntentsInput) : Refuses (quotedAsset env input) := by
  unfold quotedAsset
  split
  · exact .error nofun
  split
  · exact .error nofun
  · exact .error nofun
  · refine .bind (refuses_assertSourceMetaMatchesCatalog _ _) fun _ => .bind ?_ fun _ => .ok _
    exact .ite (.error nofun) (.ok _)

theorem refuses_assertQuoteBinding (reg : Registry) (sent : Option IntentsQuoteRequestEcho)
    (expected : IntentsQuoteExpectation) : Refuses (assertQuoteBinding reg sent expected) := by
  unfold assertQuoteBinding
  split
  · exact .error nofun
  split
  · exact .ok _
  · exact .error nofun

theorem refuses_depositMemoToAttach (mode : Option DepositMode) (memo : Option String) (kind : ChainKind) :
    Refuses (depositMemoToAttach mode memo kind) := by
  unfold depositMemoToAttach
  refine .ite (.ite (.error nofun) (.ok _)) ?_
  split
  · exact .error nofun
  · exact .ite (.error nofun) (.ite (.error nofun) (.ok _))

theorem refuses_assertDepositWindowOpen (reg : Registry) (deadline : Option String) (kind : ChainKind) (now : Int) :
    Refuses (assertDepositWindowOpen reg deadline kind now) := by
  unfold assertDepositWindowOpen
  split
  · exact .error nofun
  · exact .ite (.error nofun) (.ok _)

theorem refuses_atomicStringToBigInt (s : String) : Refuses (atomicStringToBigInt s) := by
  unfold atomicStringToBigInt
  dsimp only
  split
  · exact .ite (.ok _) (.error nofun)
  · exact .error nofun

theorem refuses_clear (input : ExecuteIntentsInput) (now : Int) : Refuses (clear env input now) := by
  refine .bind (refuses_quotedAsset input) fun asset => .bind (.bind (refuses_assertQuoteBinding _ _ _) fun _ => ?_)
    fun request => ?_
  · split
    · exact .error nofun
    · exact .bind (.ite (.ok _) (.error nofun)) fun _ => .ok _
  refine .bind (refuses_depositMemoToAttach _ _ _) fun _ => .bind (refuses_assertDepositWindowOpen _ _ _ _) fun _ => ?_
  refine .bind (refuses_atomicStringToBigInt _) fun amount => .bind ?_ fun _ => .ok _
  exact .ite (.error nofun) (.ite (.error nofun) (.ite (.error nofun) (.ite (.ok _) (.error nofun))))

theorem depositMemoToAttach_eq {mode : Option DepositMode} {memo m : Option String} {kind : ChainKind}
    (h : depositMemoToAttach mode memo kind = .ok m) : m = memoOf memo := by
  unfold depositMemoToAttach at h
  split at h
  · split at h
    · cases h
    · rename_i hno
      cases h
      simp only [not_or, Option.isSome_iff_ne_none, ne_eq, not_not] at hno
      exact hno.1.symm
  · split at h
    · cases h
    · rename_i raw
      split at h
      · cases h
      · rename_i hne
        split at h
        · cases h
        · cases h
          exact (truthy_of_ne fun hraw : raw = "" => hne (by rw [hraw]; rfl)).symm

/-- The deposit that is claimed is the quote's. -/
theorem ofQuote_of_clear {input : ExecuteIntentsInput} {now : Int} {q : Cleared} (h : clear env input now = .ok q) :
    OfQuote input q.deposit := by
  have hchecked : Checked env input now q := checked_of_clear h
  exact ⟨hchecked.address, depositMemoToAttach_eq hchecked.memo⟩

/-! ### The trade -/

/-- The call has passed the claim of its quote's deposit, and has recorded nothing of it. -/
structure Passed (deposit : DepositRef) (b : Book) : Prop where
  claimed : b.claimed = some deposit
  recorded : b.recorded = none
  threw : b.threw = false
  settled : b.settled = none

/-- What the call records is of its quote's deposit. -/
structure Owned (input : ExecuteIntentsInput) (b : Book) : Prop where
  claimed : b.recorded ≠ none → b.claimed.isSome
  quote : ∀ d, b.claimed = some d → OfQuote input d

theorem owned_blank (input : ExecuteIntentsInput) : Owned input .blank := ⟨fun h => absurd rfl h, nofun⟩

theorem owned_of_claimed {input : ExecuteIntentsInput} {deposit : DepositRef} (hq : OfQuote input deposit)
    (hb : b.claimed = some deposit) : Owned input b := by
  refine ⟨fun _ => by rw [hb]; rfl, fun d hd => ?_⟩
  obtain rfl : deposit = d := Option.some.inj (hb.symm.trans hd)
  exact hq

/-- What a trade leaves to its caller. -/
def AfterTrade (input : ExecuteIntentsInput) (r : Except TradeError IntentsTrade) (b : Book) : Prop :=
  b.settled = none ∧ Accounts b r ∧ Owned input b

theorem accounts_blank {e : TradeError} (h : Refusal e) : Accounts .blank (.error e) :=
  ⟨fun m x hx => absurd hx (h m x), nofun⟩

theorem accounts_passed {deposit : DepositRef} (hb : Passed deposit b) {e : TradeError} (h : Refusal e) :
    Accounts b (.error e) :=
  ⟨fun m x hx => absurd hx (h m x), fun x hx => by rw [hb.recorded] at hx; cases hx⟩

theorem keeps_arm {input : ExecuteIntentsInput} {q : Cleared} (hb : b.claimed.isSome) :
    tradeBooks.Keeps e (depositArm env input q) (fun _ b' => b' = b) b :=
  keeps_of_uses (whole_depositArm env input q).uses fun _ ho => arm_keeps_book ho hb

theorem orThrow_error {α : Type} {r : Except String α} {x : TradeError} (h : orThrow r = .error x) : Refusal x := by
  cases r with
  | ok a => cases h
  | error m => cases h; exact nofun

/-- Once the deposit is recorded as sent, only the callback of the last phase can fail the trade. -/
theorem keeps_afterDeposit {input : ExecuteIntentsInput} {trade : IntentsTrade} (hb : Passed trade.deposit b)
    (hq : OfQuote input trade.deposit) (he : e.IsFor trade.deposit) :
    tradeBooks.Keeps e (afterDeposit input trade) (AfterTrade input) b := by
  let b₁ : Book := { b with recorded := some { state := .broadcast, txHash := some trade.sourceTxHash } }
  have hown : Owned input b₁ := owned_of_claimed hq hb.claimed
  have hend : tradeBooks.Keeps e (phase .pending >>= fun _ => pure trade) (AfterTrade input) b₁ := by
    refine keeps_await (by exact nofun) (fun r x _ hr => ?_) (fun r _ _ hr => ?_)
    · cases r with
      | ok _ => cases hr
      | error m =>
        have hx : Refusal x := orThrow_error hr
        exact ⟨hb.settled, ⟨fun m' h' hm => absurd hm (hx m' h'), fun _ _ => rfl⟩, owned_of_claimed hq hb.claimed⟩
    · cases r with
      | error m => cases hr
      | ok _ => exact safe_ret.2 ⟨hb.settled, ⟨hb.claimed, rfl⟩, hown⟩
  refine keeps_ask ⟨he, trade.deposit, hb.claimed, rfl, .inl ⟨hb.recorded, hb.settled⟩⟩ fun _ _ => Safe.bind ?_
  suffices hpersist : tradeBooks.Keeps e (persist input trade) (fun r b' => r = .ok () ∧ b' = b₁) b₁ by
    refine hpersist.mono fun r b' hr => ?_
    obtain ⟨rfl, rfl⟩ := hr
    exact keeps_call.2 ⟨nofun, fun _ _ => hend⟩
  unfold persist
  split
  · exact keeps_call.2 ⟨nofun, fun _ _ => safe_ret.2 ⟨rfl, rfl⟩⟩
  · exact safe_ret.2 ⟨rfl, rfl⟩

theorem keeps_depositAndRecord {input : ExecuteIntentsInput} {q : Cleared} (hb : Passed q.deposit b)
    (hq : OfQuote input q.deposit) (he : e.IsFor q.deposit) :
    tradeBooks.Keeps e (depositAndRecord env input q) (AfterTrade input) b := by
  have hown : Owned input b := owned_of_claimed hq hb.claimed
  refine Safe.bind (Safe.attempt ((keeps_arm (by rw [hb.claimed]; rfl)).mono ?_))
  rintro r _ rfl
  cases r with
  | ok sent => exact keeps_afterDeposit hb hq he
  | error x =>
    cases x with
    | outcomeUnknown m h =>
      refine keeps_ask ⟨he, q.deposit, hb.claimed, rfl, .inl ⟨hb.recorded, hb.settled⟩⟩ fun _ _ =>
        safe_fail.2 ⟨hb.settled, ⟨?_, ?_⟩, owned_of_claimed hq hb.claimed⟩
      · rintro m' h' hm
        cases hm
        rfl
      · rintro h' hm
        cases hm
    | alreadyUsed _ => exact safe_fail.2 ⟨hb.settled, accounts_passed hb nofun, hown⟩
    | safety _ => exact safe_fail.2 ⟨hb.settled, accounts_passed hb nofun, hown⟩
    | quoteMismatch _ => exact safe_fail.2 ⟨hb.settled, accounts_passed hb nofun, hown⟩
    | quoteExpired => exact safe_fail.2 ⟨hb.settled, accounts_passed hb nofun, hown⟩
    | depositMemo => exact safe_fail.2 ⟨hb.settled, accounts_passed hb nofun, hown⟩
    | plain _ => exact safe_fail.2 ⟨hb.settled, accounts_passed hb nofun, hown⟩

theorem keeps_executeIntentsTrade (input : ExecuteIntentsInput) (he : ∀ d, OfQuote input d → e.IsFor d) :
    tradeBooks.Keeps e (executeIntentsTrade env input) (AfterTrade input) .blank := by
  refine keeps_call.2 ⟨nofun, fun now _ => Safe.ofExcept_bind (fun x hx => ?_) fun q hq => ?_⟩
  · exact ⟨rfl, accounts_blank (refuses_clear input now x hx), owned_blank input⟩
  refine keeps_await ⟨rfl, he _ (ofQuote_of_clear hq)⟩ (fun r x _ hr => ?_) (fun r _ _ hr => ?_)
  · cases r with
    | ok _ => cases hr
    | error prior =>
      cases hr
      exact ⟨rfl, accounts_blank nofun, owned_blank input⟩
  cases r with
  | error _ => cases hr
  | ok _ =>
    have hb : Passed q.deposit { Book.blank with claimed := some q.deposit } := ⟨rfl, rfl, rfl, rfl⟩
    have hof : OfQuote input q.deposit := ofQuote_of_clear hq
    refine keeps_await (by exact nofun) (fun r x _ hr => ?_) (fun r _ _ hr => ?_)
    · exact ⟨rfl, accounts_passed hb (orThrow_error hr), owned_of_claimed hof rfl⟩
    · exact keeps_depositAndRecord hb hof (he _ hof)

/-! ### The calls -/

/-- What a settled call leaves. -/
def AfterCall (input : ExecuteIntentsInput) (r : Except TradeError IntentsTrade) (b : Book) : Prop :=
  b.settled = some r ∧ Accounts b r ∧ Owned input b

theorem keeps_callTrade (input : ExecuteIntentsInput) (he : ∀ d, OfQuote input d → e.IsFor d) :
    tradeBooks.Keeps e (callTrade env input) (AfterCall input) .blank := by
  refine Safe.bind (Safe.attempt ((keeps_executeIntentsTrade input he).mono fun r b hr => ?_))
  obtain ⟨hsettled, haccounts, hown⟩ := hr
  refine keeps_ask ⟨hsettled, haccounts⟩ fun _ _ => Safe.ofExcept ⟨rfl, ?_, ⟨hown.claimed, hown.quote⟩⟩
  cases r with
  | ok trade => exact haccounts
  | error x => exact haccounts

theorem OfQuote.unique {input : ExecuteIntentsInput} {d d' : DepositRef} (hd : OfQuote input d)
    (hd' : OfQuote input d') : d = d' := by
  obtain ⟨a, m⟩ := d
  obtain ⟨a', m'⟩ := d'
  obtain rfl : a = a' := Option.some.inj (hd.1.symm.trans hd'.1)
  obtain rfl : m = m' := hd.2.trans hd'.2.symm
  rfl

theorem ofQuote_of_deposit {s : Submission} {deposit : DepositRef} (hs : s.deposit = some deposit) :
    OfQuote s.input deposit := by
  unfold Submission.deposit at hs
  obtain ⟨address, haddress, rfl⟩ := Option.map_eq_some_iff.1 hs
  exact ⟨haddress, rfl⟩

/-- Nothing was recorded, or the call has settled. -/
def Closed (b : Book) : Prop := b.recorded ≠ none → b.settled ≠ none

theorem keeps_afterFailure {s : Submission} {deposit : DepositRef} (hs : OfQuote s.input deposit)
    (he : e.IsFor deposit) {x : TradeError} (haccounts : Accounts b (.error x)) (hown : Owned s.input b)
    (hclosed : Closed b) :
    tradeBooks.Keeps e (afterFailure env deposit x) (fun _ => Closed) b := by
  have hretire : tradeBooks.Keeps e (if env.wrongPasswordText x then Prog.ret () else
      .ask (TradeOp.record deposit { state := .retired, txHash := none }) : TradeProg Unit) (fun _ => Closed) b :=
    Safe.ite (fun _ => safe_ret.2 hclosed) fun _ => keeps_call.2 ⟨⟨he, rfl⟩, fun _ _ => safe_ret.2 hclosed⟩
  cases x with
  | outcomeUnknown m h =>
    have hrec : b.recorded = some { state := .unknown, txHash := h } := haccounts.1 m h rfl
    have hne : b.recorded ≠ none := by rw [hrec]; nofun
    obtain ⟨d, hd⟩ := Option.isSome_iff_exists.1 (hown.claimed hne)
    obtain rfl := (hown.quote d hd).unique hs
    refine keeps_ask ⟨he, d, hd, rfl, .inr hrec⟩ fun _ _ => keeps_call.2 ⟨nofun, fun _ _ => ?_⟩
    exact safe_ret.2 fun _ => hclosed hne
  | alreadyUsed _ => exact safe_ret.2 hclosed
  | safety _ => exact hretire
  | quoteMismatch _ => exact hretire
  | quoteExpired => exact hretire
  | depositMemo => exact hretire
  | plain _ => exact hretire

theorem refuses_precheck (s : Submission) (now : Int) : Refuses (precheck env s now) := by
  unfold precheck
  split
  · exact .error nofun
  refine .bind (refuses_assertQuoteBinding _ _ _) fun _ => .bind (refuses_assertDepositWindowOpen _ _ _ _) fun _ => ?_
  exact .bind (refuses_depositMemoToAttach _ _ _) fun _ => .ok _

/-- What the modal's part of a trade leaves to its failure. -/
def AfterModal (input : ExecuteIntentsInput) (r : Except TradeError Unit) (b : Book) : Prop :=
  Closed b ∧ Owned input b ∧ ∀ x, r = .error x → Accounts b (.error x)

theorem afterModal_blank (input : ExecuteIntentsInput) {x : TradeError} (hx : Refusal x) :
    AfterModal input (.error x) .blank := by
  refine ⟨fun h => absurd rfl h, owned_blank input, fun y hy => ?_⟩
  cases hy
  exact accounts_blank hx

theorem keeps_tradeFromModal (s : Submission) (he : ∀ d, OfQuote s.input d → e.IsFor d) :
    tradeBooks.Keeps e (tradeFromModal env s) (AfterModal s.input) .blank := by
  refine keeps_call.2 ⟨nofun, fun now _ => Safe.ofExcept_bind (fun x hx => ?_) fun _ _ => ?_⟩
  · exact afterModal_blank s.input (refuses_precheck s now x hx)
  have hrecheck : tradeBooks.Keeps e (recheckPayout s) (fun r b => b = .blank ∧ ∀ x, r = .error x → Refusal x)
      .blank := by
    refine Safe.ite (fun _ => keeps_request (by exact nofun) fun r _ => ?_) fun _ => safe_ret.2 ⟨rfl, nofun⟩
    exact ⟨rfl, fun x hx => orThrow_error hx⟩
  refine Safe.bind (hrecheck.mono fun r b hr => ?_)
  obtain ⟨rfl, hx⟩ := hr
  cases r with
  | error x => exact afterModal_blank s.input (hx x rfl)
  | ok _ =>
    refine keeps_await (by exact nofun) (fun r x _ hr => afterModal_blank s.input (orThrow_error hr)) fun r sid _ _ => ?_
    refine Safe.bind ((keeps_callTrade { s.input with sessionId := sid, hasOnBroadcast := true } fun d hd =>
      he d ⟨hd.1, hd.2⟩).mono fun r b hr => ?_)
    obtain ⟨hsettled, haccounts, hown⟩ := hr
    have hclosed : Closed b := fun _ => by rw [hsettled]; nofun
    have hown' : Owned s.input b := ⟨hown.claimed, hown.quote⟩
    cases r with
    | ok _ => exact safe_ret.2 ⟨hclosed, hown', nofun⟩
    | error x =>
      refine ⟨hclosed, hown', fun y hy => ?_⟩
      cases hy
      exact haccounts

theorem keeps_submitPassword (s : Submission) (he : ∀ d, OfQuote s.input d → e.IsFor d) :
    tradeBooks.Keeps e (submitPassword env s) (fun _ => Closed) .blank := by
  have hblank : Closed .blank := fun h => absurd rfl h
  unfold submitPassword
  split
  · exact safe_ret.2 hblank
  rename_i deposit hs
  refine keeps_call.2 ⟨nofun, fun prior _ => ?_⟩
  cases prior with
  | some _ => exact safe_ret.2 hblank
  | none =>
    refine Safe.bind (Safe.attempt ((keeps_tradeFromModal s he).mono fun r b hr => ?_))
    obtain ⟨hclosed, hown, haccounts⟩ := hr
    cases r with
    | ok _ => exact safe_ret.2 hclosed
    | error x =>
      have hof : OfQuote s.input deposit := ofQuote_of_deposit hs
      exact keeps_afterFailure hof (he deposit hof) (haccounts x rfl) hown hclosed

theorem keeps_body (env : Env) (e : TradeEntry) : tradeBooks.Keeps e (e.body env) (fun _ => Closed) .blank := by
  cases e with
  | trade input =>
    refine Safe.handle ((keeps_callTrade input fun _ => id).mono fun r b hr => safe_ret.2 fun _ => ?_)
    rw [hr.1]
    nofun
  | submit s => exact Safe.handle ((keeps_submitPassword s fun _ => id).mono fun r b hr => safe_ret.2 hr)
  | retire deposit => exact keeps_call.2 ⟨⟨rfl, rfl⟩, fun _ _ => safe_ret.2 fun h => absurd rfl h⟩

theorem trades_follow (env : Env) : tradeBooks.Follows (tradeSys env) TradeWorld.books InSession where
  kept :=
    { own := fun _ _ _ _ => Function.update_self ..
      other := fun _ _ _ _ _ hj => Function.update_of_ne hj .. }
  body := keeps_body env
  answers := fun _ _ _ _ _ _ _ _ => trivial
  spawns := fun _ => rfl
  crash := fun _ => id

end Intents
