import PwndaWallet.Intents.EvmDepositSound
import PwndaWallet.Intents.Signer
import PwndaWallet.Vault.Keystore

/-!
# Which wallet signs

Where a deposit that the session signed is broadcast, the session's key controls the address that it is
sent from: on every arm but the EVM one, which does not compare them (`not_always_right_wallet`).
-/

namespace Intents

open Js Tasks

variable {env : Env} {c : Crypto env} {mnemonic : String} {accessKey : String → String → Prop}
  {input : ExecuteIntentsInput} {h : List (Ev TradeOp.Ans)}

/-! ## What is broadcast -/

/-- The broadcasts of what the session has signed. -/
def TradeOp.sendsSigned : TradeOp → Bool
  | .broadcastEvmVerified .. | .broadcastSolana .. | .broadcastNear .. | .submitStellar .. | .executeSui .. => true
  | _ => false

/-- What is broadcast is from `address`, which the key that signed it controls. -/
def Controls (c : Crypto env) (mnemonic : String) (accessKey : String → String → Prop) (address : String) : TradeOp → Prop
  | .broadcastEvmVerified _ raw => env.loc.toLowerCase (c.recoverEvm raw) = env.loc.toLowerCase address
  | .broadcastSolana _ message _ => message.feePayer = address ∧ swapGetSolanaAddress c mnemonic = .ok address
  | .broadcastNear _ tx _ => tx.signerId = address ∧ ∃ near, swapGetNearAddress c mnemonic = .ok near ∧
      tx.publicKey = near.publicKey ∧ accessKey address near.publicKey
  | .submitStellar tx _ => tx.source = String.ofList (trim address.toList) ∧
      swapGetStellarAddress c mnemonic = .ok (String.ofList (trim address.toList))
  | .executeSui tx _ => tx.sender = env.loc.toLowerCase (String.ofList (trim address.toList)) ∧
      ∃ signer, swapGetSuiAddress c mnemonic = .ok signer ∧
        env.loc.toLowerCase signer = env.loc.toLowerCase (String.ofList (trim address.toList))
  | _ => True

/-- The key that the EVM signer uses has the address of the input. -/
def EvmKeyIsSource (c : Crypto env) (mnemonic : String) (input : ExecuteIntentsInput) : Prop :=
  ∃ key, evmKey c mnemonic (input.account.getD 0) (input.index.getD 0) = .ok key ∧
    env.loc.toLowerCase (c.evmAddress key) = env.loc.toLowerCase input.sourceAddress

/-- The refund goes to the address that is sent from. -/
def RefundsSource (env : Env) (input : ExecuteIntentsInput) : Prop :=
  ∃ request, input.quoteRequest = some request ∧ sameAddress env.toRegistry request.refundTo input.sourceAddress = true

/-- The nonces and the balances that are read are those of the address that is sent from. -/
def ReadsSource (env : Env) (input : ExecuteIntentsInput) : TradeOp → Prop
  | .evmRpc _ (.getBalance address) => address = input.sourceAddress
  | .evmRpc _ (.getTransactionCount address) => address = input.sourceAddress
  | .nearAccessKey _ accountId _ => accountId = input.sourceAddress
  | .nep141State _ _ sender _ => sender = input.sourceAddress
  | .horizonSequence account _ => account = String.ofList (trim input.sourceAddress.toList)
  | .buildSuiTransfer sender _ _ => sender = env.loc.toLowerCase (String.ofList (trim input.sourceAddress.toList))
  | _ => True

/-- The broadcasts that a key is compared before: all but those of the EVM arm. -/
def TradeOp.guarded : TradeOp → Bool
  | .broadcastEvmVerified .. => false
  | o => o.sendsSigned

/-- What holds where an operation is asked. What the EVM arm broadcasts is left out here. -/
def signedByOwner (c : Crypto env) (mnemonic : String) (accessKey : String → String → Prop) (input : ExecuteIntentsInput)
    (o : TradeOp) (h : List (Ev TradeOp.Ans)) : Prop :=
  ReadsSource env input o ∧ (o.guarded = true → (∀ e ∈ h, FromSession c mnemonic accessKey e) →
    Controls c mnemonic accessKey input.sourceAddress o)

abbrev Guards (c : Crypto env) (mnemonic : String) (accessKey : String → String → Prop) (input : ExecuteIntentsInput)
    {α : Type} (p : TradeProg α) (h : List (Ev TradeOp.Ans)) : Prop :=
  Safe (.hist (signedByOwner c mnemonic accessKey input)) p (OnOk fun _ _ => True) h

/-- An operation that no key is compared for. -/
def Plain (env : Env) (input : ExecuteIntentsInput) (o : TradeOp) : Prop :=
  o.guarded = false ∧ ReadsSource env input o

theorem must_of_plain {o : TradeOp} (ho : Plain env input o) : signedByOwner c mnemonic accessKey input o h :=
  ⟨ho.2, fun hs => absurd (hs.symm.trans ho.1) (by decide)⟩

theorem guards_of_uses {α : Type} {p : TradeProg α} (hp : Uses (Plain env input) p) : Guards c mnemonic accessKey input p h :=
  (safe_of_uses hp (fun _ _ ho => must_of_plain ho) h).mono fun r _ _ => by cases r <;> exact trivial

/-- `let a ← request o judge`, of an operation that no key is compared for -/
theorem guards_await {α β : Type} {o : TradeOp} {judge : o.Ans → Except TradeError α} {k : α → TradeProg β} (ho : Plain env input o)
    (hk : ∀ r a, judge r = .ok a → Guards c mnemonic accessKey input (k a) (h ++ [⟨o, r⟩])) :
    Guards c mnemonic accessKey input ((Prog.request o judge).bind k) h :=
  safe_await_hist (must_of_plain ho) hk

/-! ## The EVM arm -/

/-- The EVM arm reads the balance and the nonce of the input's address. -/
theorem guards_depositEvm (q : Cleared) : Guards c mnemonic accessKey input
    (depositEvm env input q.coin q.deposit.depositAddress q.amount q.contract) h := by
  have hsettle : ∀ rpcUrls localHash r, Uses (Plain env input) (settleEvm env rpcUrls localHash r) := by
    intro rpcUrls localHash r
    cases r with
    | ok hash => exact .ite trivial trivial
    | error msg => exact ⟨⟨rfl, trivial⟩, fun _ => .ite trivial (.ite trivial trivial)⟩
  refine guards_of_uses (.bind (.orFail ..) fun _ => .bind (.ensure ..) fun _ => .bind (.ofExcept _) fun _ => ?_)
  refine .bind (.request ⟨rfl, trivial⟩) fun _ => .bind (.request ⟨rfl, rfl⟩) fun _ => .bind (.orFail ..) fun _ => ?_
  refine .bind (.bind (.attempt (.request ⟨rfl, trivial⟩)) fun _ => trivial) fun _ => .bind ?_ fun _ => ?_
  · cases q.contract with
    | none => exact trivial
    | some contract => exact .bind (.ofExcept _) fun _ => .request ⟨rfl, trivial⟩
  refine .bind (.ofExcept _) fun _ => .bind (.request ⟨rfl, rfl⟩) fun _ => .bind (.ofExcept _) fun _ => ?_
  refine .bind (.request ⟨rfl, trivial⟩) fun _ => .bind (.request ⟨rfl, trivial⟩) fun _ => .bind (.ofExcept _) fun _ => ?_
  exact .bind (.request ⟨rfl, trivial⟩) fun _ => ⟨⟨rfl, trivial⟩, fun _ => hsettle ..⟩

/-! ## The other arms -/

theorem withSession_ok {α : Type} {command : Except String α} {a : α} (h : WithSession command (.ok a)) :
    command = .ok a := by
  rcases h with h | h
  · exact h.symm
  · obtain ⟨e, he⟩ := h
    cases he

theorem guards_shown {transfer : TradeProg String} (ht : ∀ h, Guards c mnemonic accessKey input transfer h) :
    Guards c mnemonic accessKey input (shown transfer) h := by
  refine guards_await ⟨rfl, trivial⟩ fun _ _ _ => Safe.bind_ok (ht _) fun _ _ _ => ?_
  exact guards_await ⟨rfl, trivial⟩ fun _ _ _ => safe_ret.2 trivial

/-- The bytes are sent for the fee payer that the signature verifies for. -/
theorem guards_signAndBroadcastSolana {rpcUrl : String} {message : SolanaMessage}
    (hpayer : message.feePayer = input.sourceAddress) :
    Guards c mnemonic accessKey input (signAndBroadcastSolana env input.sessionId rpcUrl message) h := by
  refine guards_await ⟨rfl, trivial⟩ fun r signed hr => Safe.ensure_bind (fun _ => trivial) fun hverify => ?_
  obtain rfl := orThrow_ok hr
  refine safe_call_hist.2 ⟨⟨trivial, fun _ hs => ⟨hpayer, ?_⟩⟩, fun r => guards_of_uses ?_⟩
  · have hsigned : swapSignSolana c mnemonic message = .ok signed :=
      withSession_ok (hs _ (List.mem_append_right _ (List.mem_singleton_self _)))
    obtain ⟨key, hkey, hsigned⟩ := Rust.ok_of_bind hsigned
    rw [swapGetSolanaAddress, hkey, ← hpayer, c.verifySolana_signSolana key message signed _ hsigned hverify]
    rfl
  · cases r with
    | ok hash => exact trivial
    | error msg => exact ⟨⟨rfl, trivial⟩, fun _ => .ite trivial (.ite trivial trivial)⟩

theorem guards_executeSolanaTransfer {depositAddress amountAtomic rpcUrl : String} : Guards c mnemonic accessKey input
    (executeSolanaTransfer env input.sessionId input.sourceAddress depositAddress amountAtomic rpcUrl) h := by
  refine Safe.ensure_bind (fun _ => trivial) fun _ => Safe.ofExcept_bind (fun _ _ => trivial) fun _ _ => ?_
  refine Safe.ensure_bind (fun _ => trivial) fun _ => guards_await ⟨rfl, trivial⟩ fun _ _ _ => ?_
  exact guards_signAndBroadcastSolana rfl

theorem guards_executeSplTransfer {depositAddress mint amountAtomic rpcUrl : String} : Guards c mnemonic accessKey input
    (executeSplTransfer env input.sessionId input.sourceAddress depositAddress mint amountAtomic rpcUrl) h := by
  refine Safe.ensure_bind (fun _ => trivial) fun _ => Safe.ofExcept_bind (fun _ _ => trivial) fun _ _ => ?_
  refine Safe.ensure_bind (fun _ => trivial) fun _ => guards_await ⟨rfl, trivial⟩ fun _ _ _ => ?_
  exact guards_await ⟨rfl, trivial⟩ fun _ _ _ => guards_signAndBroadcastSolana rfl

/-- The transaction is the account's, and of the session's public key, which is one of its access keys. -/
theorem guards_signSubmitAndConfirmNear {rpcUrls : List String} {tx : NearTransaction} {near : NearAddress} {nonce : Nat}
    {account : String} {urls : List String} (hsigner : tx.signerId = account) (haccount : account = input.sourceAddress)
    (hpublic : tx.publicKey = near.publicKey) (hnear : ⟨.getNearAddress input.sessionId, .ok near⟩ ∈ h)
    (hkey : ⟨.nearAccessKey urls account near.publicKey, .ok (some nonce)⟩ ∈ h) :
    Guards c mnemonic accessKey input (signSubmitAndConfirmNear env input.sessionId rpcUrls tx) h := by
  have hany : ∀ (signature : String) (urls : List String) (h' : List (Ev TradeOp.Ans)), h ⊆ h' →
      Guards c mnemonic accessKey input (broadcastNearAny tx signature urls) h' := by
    intro signature urls
    induction urls with
    | nil => exact fun h' _ => safe_ret.2 trivial
    | cons url urls ih =>
      intro h' hh
      refine safe_call_hist.2 ⟨⟨trivial, fun _ hs => ⟨hsigner.trans haccount, near, ?_, hpublic, ?_⟩⟩, fun r => ?_⟩
      · exact withSession_ok (hs _ (hh hnear))
      · rw [← haccount]
        exact hs _ (hh hkey) nonce rfl
      · cases r with
        | ok _ => exact safe_ret.2 trivial
        | error _ => exact ih _ fun e he => List.mem_append_left _ (hh he)
  refine guards_await ⟨rfl, trivial⟩ fun _ signature _ => Safe.ensure_bind (fun _ => trivial) fun _ => ?_
  refine Safe.bind_ok (hany _ _ _ (List.subset_append_left ..)) fun _ _ _ => guards_of_uses ⟨⟨rfl, trivial⟩, fun r => ?_⟩
  cases r <;> exact trivial

/-- The nonce is read of an access key that the node reports. -/
theorem guards_fetchNearNonce {rpcUrls : List String} {publicKey : String} :
    Safe (.hist (signedByOwner c mnemonic accessKey input)) (fetchNearNonce rpcUrls input.sourceAddress publicKey)
      (OnOk fun _ h' => h ⊆ h' ∧ ∃ nonce, ⟨.nearAccessKey rpcUrls input.sourceAddress publicKey, .ok (some nonce)⟩ ∈ h')
      h := by
  refine safe_await_hist (must_of_plain ⟨rfl, rfl⟩) fun r found hr => Safe.orFail_bind (fun _ => trivial) fun nonce hn => ?_
  obtain rfl := orThrow_ok hr
  subst hn
  refine safe_await_hist (must_of_plain ⟨rfl, trivial⟩) fun r blockHash _ => safe_ret.2 ⟨?_, nonce, ?_⟩
  · exact fun e he => List.mem_append_left _ (List.mem_append_left _ he)
  · exact List.mem_append_left _ (List.mem_append_right _ (List.mem_singleton_self _))

theorem guards_executeNearNativeTransfer {near : NearAddress} {depositAddress amountAtomic rpcUrl : String}
    (hnear : ⟨.getNearAddress input.sessionId, .ok near⟩ ∈ h) : Guards c mnemonic accessKey input
      (executeNearNativeTransfer env input.sessionId input.sourceAddress near.publicKey depositAddress amountAtomic rpcUrl)
      h := by
  refine Safe.ofExcept_bind (fun _ _ => trivial) fun receiver _ => Safe.ofExcept_bind (fun _ _ => trivial) fun _ _ => ?_
  refine Safe.ensure_bind (fun _ => trivial) fun _ => ?_
  have hreceiver : ∀ rpcUrls, Safe (.hist (signedByOwner c mnemonic accessKey input))
      (assertNearReceiver rpcUrls receiver) (OnOk fun _ h' => h ⊆ h') h := by
    intro rpcUrls
    refine Safe.ite (fun _ => safe_ret.2 fun _ => id) fun _ => ?_
    refine safe_await_hist (must_of_plain ⟨rfl, trivial⟩) fun _ _ _ => Safe.ensure (fun _ => ?_) fun _ => trivial
    exact List.subset_append_left ..
  refine Safe.bind_ok (hreceiver _) fun _ h₁ hh₁ => Safe.bind_ok guards_fetchNearNonce fun at_ h₂ ⟨hh₂, nonce, hkey⟩ => ?_
  exact guards_signSubmitAndConfirmNear rfl rfl rfl (hh₂ (hh₁ hnear)) hkey

theorem guards_executeNearTokenTransfer {near : NearAddress} {tokenContract receiver amountAtomic rpcUrl : String}
    (hnear : ⟨.getNearAddress input.sessionId, .ok near⟩ ∈ h) : Guards c mnemonic accessKey input
      (executeNearTokenTransfer env input.sessionId input.sourceAddress near.publicKey tokenContract receiver amountAtomic
        rpcUrl) h := by
  refine Safe.ofExcept_bind (fun _ _ => trivial) fun receiver _ => Safe.ofExcept_bind (fun _ _ => trivial) fun _ _ => ?_
  refine Safe.ensure_bind (fun _ => trivial) fun _ => Safe.ensure_bind (fun _ => trivial) fun _ => ?_
  refine guards_await ⟨rfl, rfl⟩ fun _ st _ => Safe.ofExcept_bind (fun _ _ => trivial) fun _ _ => ?_
  refine Safe.bind_ok guards_fetchNearNonce fun at_ h₁ ⟨hh₁, nonce, hkey⟩ => ?_
  exact guards_signSubmitAndConfirmNear rfl rfl rfl (hh₁ (List.mem_append_left _ hnear)) hkey

/-- The session's address is compared with the source before anything is signed. -/
theorem guards_executeStellarTransfer {depositAddress memo : String} {stroops : Nat} : Guards c mnemonic accessKey input
    (executeStellarTransfer env input.sessionId input.sourceAddress depositAddress stroops memo) h := by
  refine Safe.ensure_bind (fun _ => trivial) fun _ => Safe.ensure_bind (fun _ => trivial) fun _ => ?_
  refine Safe.ensure_bind (fun _ => trivial) fun _ => guards_await ⟨rfl, trivial⟩ fun r signerAddress hr => ?_
  obtain rfl := orThrow_ok hr
  refine Safe.ensure_bind (fun _ => trivial) fun hsame => guards_await ⟨rfl, rfl⟩ fun _ _ _ => ?_
  refine guards_await ⟨rfl, trivial⟩ fun _ _ _ => Safe.ensure_bind (fun _ => trivial) fun _ => ?_
  refine guards_await ⟨rfl, trivial⟩ fun _ _ _ => Safe.ensure_bind (fun _ => trivial) fun _ => ?_
  refine Safe.ensure_bind (fun _ => trivial) fun _ => safe_request_hist ⟨trivial, fun _ hs => ⟨rfl, ?_⟩⟩ fun r => ?_
  · have haddress : swapGetStellarAddress c mnemonic = .ok signerAddress := withSession_ok
      (hs ⟨.getStellarAddress input.sessionId, .ok signerAddress⟩ (by simp))
    rw [haddress, beq_iff_eq.1 hsame]
  · cases r <;> exact trivial

theorem guards_executeSuiTransfer {depositAddress : String} {mist : Nat} : Guards c mnemonic accessKey input
    (executeSuiTransfer env input.sessionId input.sourceAddress depositAddress mist) h := by
  refine Safe.ofExcept_bind (fun _ _ => trivial) fun _ _ => Safe.ensure_bind (fun _ => trivial) fun _ => ?_
  refine guards_await ⟨rfl, trivial⟩ fun r signerAddress hr => Safe.ensure_bind (fun _ => trivial) fun hsame => ?_
  obtain rfl := orThrow_ok hr
  refine guards_await ⟨rfl, rfl⟩ fun _ _ _ => guards_await ⟨rfl, trivial⟩ fun _ _ _ => ?_
  refine Safe.ensure_bind (fun _ => trivial) fun _ => safe_request_hist ⟨trivial, fun _ hs => ⟨rfl, signerAddress, ?_, ?_⟩⟩ fun r => ?_
  · exact withSession_ok (hs ⟨.getSuiAddress input.sessionId, .ok signerAddress⟩ (by simp))
  · exact beq_iff_eq.1 hsame
  · cases r <;> exact trivial

/-! ## The trade -/

theorem source_nonempty {now : Int} {q : Cleared} (hq : Checked env input now q) : input.sourceAddress ≠ "" := by
  obtain ⟨request, _, hbinds, _⟩ := hq.request
  have hsame := hbinds.refundTo
  unfold sameAddress at hsame
  simp only [Bool.and_eq_true, decide_eq_true_eq] at hsame
  exact hsame.1.2

theorem guards_depositArm {now : Int} {q : Cleared} (hq : Checked env input now q) :
    Guards c mnemonic accessKey input (depositArm env input q) h := by
  have hne : input.sourceAddress ≠ "" := source_nonempty hq
  have hother : q.coin.chainKind.arm = .other → Guards c mnemonic accessKey input (depositArm env input q) h := by
    intro harm
    have huses := (whole_depositArm env input q).uses
    rw [harm] at huses
    refine (safe_of_uses huses (fun o h ho => must_of_plain ?_) h).mono fun r _ _ => by cases r <;> exact trivial
    rcases ho with ho | ⟨p, rfl, _⟩
    · cases o <;> first | (cases ho; done) | exact ⟨rfl, trivial⟩
    · exact ⟨rfl, trivial⟩
  cases hkind : q.coin.chainKind
  case evm =>
    simp only [depositArm, hkind]
    exact Safe.bind_ok (guards_depositEvm q) fun _ _ _ => safe_ret.2 trivial
  case solana =>
    simp only [depositArm, hkind, depositSolana, sourceOr, if_pos hne]
    refine Safe.ofExcept_bind (fun _ _ => trivial) fun _ _ => guards_shown fun h' => ?_
    cases q.contract with
    | some mint => exact guards_executeSplTransfer
    | none => exact guards_executeSolanaTransfer
  case near =>
    simp only [depositArm, hkind, depositNear, sourceOr, if_pos hne]
    refine Safe.ofExcept_bind (fun _ _ => trivial) fun _ _ => guards_await ⟨rfl, trivial⟩ fun r near hr => ?_
    obtain rfl := orThrow_ok hr
    refine guards_await ⟨rfl, trivial⟩ fun _ _ _ => Safe.bind_ok (P := fun _ _ => True) ?_ fun _ _ _ =>
      guards_await ⟨rfl, trivial⟩ fun _ _ _ => safe_ret.2 trivial
    have hmem : ∀ e : Ev TradeOp.Ans, (⟨.getNearAddress input.sessionId, .ok near⟩ : Ev TradeOp.Ans) ∈
        h ++ [⟨.getNearAddress input.sessionId, .ok near⟩] ++ [e] := by simp
    cases q.contract with
    | some tokenContract => exact guards_executeNearTokenTransfer (hmem _)
    | none => exact guards_executeNearNativeTransfer (hmem _)
  case stellar =>
    simp only [depositArm, hkind, depositStellar]
    refine Safe.orFail_bind (fun _ => trivial) fun _ _ => Safe.ofExcept_bind (fun _ _ => trivial) fun _ _ => ?_
    exact guards_shown fun _ => guards_executeStellarTransfer
  case sui =>
    simp only [depositArm, hkind, depositSui]
    exact Safe.ofExcept_bind (fun _ _ => trivial) fun _ _ => guards_shown fun _ => guards_executeSuiTransfer
  all_goals exact hother (by rw [hkind]; rfl)

theorem guards_executeIntentsTrade : Guards c mnemonic accessKey input (executeIntentsTrade env input) [] := by
  refine safe_call_hist.2 ⟨must_of_plain ⟨rfl, trivial⟩, fun now => Safe.ofExcept_bind (fun _ _ => trivial) fun q hq => ?_⟩
  refine guards_await ⟨rfl, trivial⟩ fun _ _ _ => guards_await ⟨rfl, trivial⟩ fun _ _ _ => Safe.bind (Safe.attempt ?_)
  refine (guards_depositArm (checked_of_clear hq)).mono fun r h' _ => ?_
  cases r with
  | ok sent =>
    refine guards_of_uses (.bind (.ask ⟨rfl, trivial⟩) fun _ => .bind ?_ fun _ => ?_)
    · exact .ite ⟨⟨rfl, trivial⟩, fun _ => trivial⟩ trivial
    · exact .bind ⟨⟨rfl, trivial⟩, fun _ => trivial⟩ fun _ => .bind (.request ⟨rfl, trivial⟩) fun _ => trivial
  | error e => exact guards_of_uses (.bind (by cases e <;> first | exact .ask ⟨rfl, trivial⟩ | exact trivial) fun _ => trivial)

/-- What is signed is broadcast for a refund to the source only. -/
def refundsSource (env : Env) (input : ExecuteIntentsInput) (o : TradeOp) (_ : List (Ev TradeOp.Ans)) : Prop :=
  o.sendsSigned = true → RefundsSource env input

/-- A quote whose refund goes elsewhere is refused before anything is signed. -/
theorem refunds_executeIntentsTrade :
    Safe (.hist (refundsSource env input)) (executeIntentsTrade env input) (OnOk fun _ _ => True) [] := by
  refine safe_call_hist.2 ⟨nofun, fun now => ?_⟩
  by_cases hrefund : RefundsSource env input
  · have huses := ((@whole_executeIntentsTrade env input).2 now).uses
    have hmust : ∀ (o : TradeOp) h, True → refundsSource env input o h := fun _ _ _ _ => hrefund
    exact (safe_of_uses huses hmust _).mono fun r _ _ => by cases r <;> exact trivial
  · refine Safe.ofExcept_bind (fun _ _ => trivial) fun q hq => absurd ?_ hrefund
    obtain ⟨request, hrequest, hbinds, _⟩ := (checked_of_clear hq).request
    exact ⟨request, hrequest, hbinds.refundTo⟩

/-- The bytes of an Ethereum deposit are the signer's answer for the account and the index of the input. -/
theorem signs_executeIntentsTrade {tr : List (Ev TradeOp.Ans)} {rpcUrls : List String} {raw : String}
    {k : Except String String → TradeProg IntentsTrade}
    (hr : (executeIntentsTrade env input).Run tr (.call (.broadcastEvmVerified rpcUrls raw) k))
    (hsession : ∀ e ∈ tr, FromSession c mnemonic accessKey e) :
    ∃ key, evmKey c mnemonic (input.account.getD 0) (input.index.getD 0) = .ok key ∧ c.recoverEvm raw = c.evmAddress key := by
  obtain ⟨q, hq⟩ := must_of_run (walks_executeIntentsTrade env input) hr
  obtain ⟨tx, hsign, _⟩ := hq.funded
  have hraw : swapSignEvm c mnemonic tx (input.account.getD 0) (input.index.getD 0) = .ok raw :=
    withSession_ok (hsession _ hsign)
  obtain ⟨key, hkey, hraw⟩ := Rust.ok_of_bind hraw
  exact ⟨key, hkey, c.recoverEvm_signEvm tx key raw hraw⟩

/-- Whatever the vault's phrase and the input are: what is broadcast of the session's signatures is signed by the
key of the source address, on the EVM arm exactly where the key that signs there is that key. -/
theorem right_wallet_signs {tr : List (Ev TradeOp.Ans)} {o : TradeOp} {k : o.Ans → TradeProg IntentsTrade}
    (hr : (executeIntentsTrade env input).Run tr (.call o k)) (hsession : ∀ e ∈ tr, FromSession c mnemonic accessKey e)
    (ho : o.sendsSigned = true) :
    (Controls c mnemonic accessKey input.sourceAddress o ↔
      ((∃ rpcUrls raw, o = .broadcastEvmVerified rpcUrls raw) → EvmKeyIsSource c mnemonic input)) ∧
    RefundsSource env input ∧ ∀ e ∈ tr, ReadsSource env input e.op := by
  refine ⟨?_, must_of_run refunds_executeIntentsTrade hr ho, fun e he => ?_⟩
  · by_cases hevm : ∃ rpcUrls raw, o = .broadcastEvmVerified rpcUrls raw
    · obtain ⟨rpcUrls, raw, rfl⟩ := hevm
      obtain ⟨key, hkey, hraw⟩ := signs_executeIntentsTrade hr hsession
      unfold Controls EvmKeyIsSource
      dsimp only
      rw [hraw]
      constructor
      · exact fun hsame _ => ⟨key, hkey, hsame⟩
      · intro hsource
        obtain ⟨key', hkey', hsame⟩ := hsource ⟨rpcUrls, raw, rfl⟩
        obtain rfl := Except.ok.inj (hkey.symm.trans hkey')
        exact hsame
    · refine ⟨fun _ h => absurd h hevm, fun _ => (must_of_run guards_executeIntentsTrade hr).2 ?_ hsession⟩
      cases o with
      | broadcastEvmVerified rpcUrls raw => exact absurd ⟨rpcUrls, raw, rfl⟩ hevm
      | _ => exact ho
  · obtain ⟨pre, post, htr⟩ := List.append_of_mem he
    have hguards : Guards c mnemonic accessKey input (executeIntentsTrade env input) [] := guards_executeIntentsTrade
    exact (must_of_mem hguards hr htr).1

/-! ## A phrase and an imported key -/

/-- Keys that are their addresses. The phrase's key is `derived`. -/
def sampleCrypto (derived : String) : Crypto sampleEnv where
  Seed := Unit
  Key := String
  mnemonicToSeed _ _ := .ok ()
  evmPrivateKey _ _ _ := .ok derived
  evmAddress key := key
  signEvm _ key := if key = derived then .ok sampleRaw else .error ""
  recoverEvm _ := derived
  recoverEvm_signEvm := by
    intro tx key raw hraw
    split at hraw
    · exact Eq.symm ‹_›
    · cases hraw
  solanaSecret _ := derived
  solanaAddress key := key
  signSolana _ _ := .error ""
  verifySolana_signSolana := nofun
  nearSecret _ := derived
  nearAddress key := { accountId := key, publicKey := key }
  signNear _ _ := .error ""
  stellarSecret _ := derived
  stellarAddress key := key
  signStellar _ _ := .error ""
  suiSecret _ := derived
  suiAddress key := key
  signSui _ _ := .error ""

theorem fromSession_sample {derived mnemonic : String} {e : Ev TradeOp.Ans} (he : ∃ m : Nat, e = ⟨e.op, sampleOutside e.op⟩) :
    FromSession (sampleCrypto derived) mnemonic (fun _ _ => False) e := by
  obtain ⟨_, he⟩ := he
  rw [he]
  cases e.op with
  | signEvm _ tx account index => exact .inl (if_pos rfl).symm
  | nearAccessKey _ _ _ => exact nofun
  | getSolanaAddress _ | signSolana _ _ | getNearAddress _ | signNear _ _ | getStellarAddress _ | signStellar _ _
  | getSuiAddress _ | signSui _ _ => exact .inr ⟨_, rfl⟩
  | _ => exact trivial

theorem right_wallet_signs_sample : ∃ rpcUrls,
    Controls (sampleCrypto sampleSource) "abandon ability" (fun _ _ => False) sampleSource
      (.broadcastEvmVerified rpcUrls sampleRaw) ∧ RefundsSource sampleEnv sampleInput := by
  obtain ⟨rpcUrls, k, hrun⟩ :=
    @run_to_broadcast sampleEnv sampleInput (fun _ => sampleOutside) 10 sampleRaw (by decide +kernel)
  have hsession : ∀ e ∈ (executeIntentsTrade sampleEnv sampleInput).fed (fun _ => sampleOutside) 10,
      FromSession (sampleCrypto sampleSource) "abandon ability" (fun _ _ => False) e :=
    fun _ he => fromSession_sample (Prog.mem_fed he)
  obtain ⟨hcontrols, hrefunds, _⟩ := right_wallet_signs hrun hsession rfl
  exact ⟨rpcUrls, hcontrols.2 fun _ => ⟨sampleSource, rfl, rfl⟩, hrefunds⟩

/-- A phrase, and an imported Ethereum key that is the active wallet. -/
def importedKey : Vault.WalletEntry where
  id := "k"
  name := "Imported"
  kind := .privateKey
  seed := "0x4646464646464646464646464646464646464646464646464646464646464646"
  createdAt := 2
  groupId := some "h"
  chain := some .ethereum

def importedActive : Vault.VaultPayloadV3 where
  wallets := [Keystore.phraseIn "a" "g" "abandon ability", importedKey]
  lastActiveWalletId := some "k"

/-- The EVM arm does not compare the signer with the source: the deposit of the active wallet, an imported key,
is signed by the phrase of another wallet of the vault. -/
theorem not_always_right_wallet : ¬ ∀ (v : Vault.VaultPayloadV3) (w : Vault.WalletEntry) (mnemonic : String)
    (env : Env) (c : Crypto env) (importKey : String → c.Key) (accessKey : String → String → Prop)
    (input : ExecuteIntentsInput) (tr : List (Ev TradeOp.Ans)) (o : TradeOp) (k : o.Ans → TradeProg IntentsTrade),
    w ∈ v.wallets → v.lastActiveWalletId = some w.id → w.kind = .privateKey → w.chain = some .ethereum →
    c.evmAddress (importKey w.seed) = input.sourceAddress →
    Keystore.bip39FromPayload (fun _ => some (Keystore.vaultJson v)) "{}" = .ok mnemonic →
    (executeIntentsTrade env input).Run tr (.call o k) → (∀ e ∈ tr, FromSession c mnemonic accessKey e) →
    o.sendsSigned = true → Controls c mnemonic accessKey input.sourceAddress o := by
  intro hall
  obtain ⟨rpcUrls, k, hrun⟩ :=
    @run_to_broadcast sampleEnv sampleInput (fun _ => sampleOutside) 10 sampleRaw (by decide +kernel)
  have hcontrols := hall importedActive importedKey "abandon ability" sampleEnv (sampleCrypto sampleDeposit)
    (fun _ => sampleSource) (fun _ _ => False) sampleInput _ _ k (by decide) rfl rfl rfl rfl rfl hrun
    (fun _ he => fromSession_sample (Prog.mem_fed he)) rfl
  have hdiffer : sampleEnv.loc.toLowerCase sampleDeposit ≠ sampleEnv.loc.toLowerCase sampleSource := by decide +kernel
  exact hdiffer hcontrols

end Intents
