import PwndaWallet.Intents.SessionSound

/-!
# One deposit for a quote

What holds after every run of a session, and from then on: a pair is claimed once and deposited under its
claim only, a deposit that has a hash resolves with it, and one whose outcome is unknown is recorded so.
-/

namespace Intents

open Tasks Tasks.Books

variable {env : Env} {c c' : TradeCfg}

/-! ## Calls end -/

theorem whole_executeIntentsTrade (input : ExecuteIntentsInput) :
    Whole (fun _ => True) (executeIntentsTrade env input) := by
  refine ⟨trivial, fun now => .bind (.ofExcept _) fun q => .bind (.request trivial) fun _ => ?_⟩
  refine .bind (.request trivial) fun _ => .bind (.attempt ?_) fun sent => ?_
  · exact (whole_depositArm env input q).mono fun _ _ => trivial
  · cases sent with
    | error x =>
      refine .bind ?_ fun _ => trivial
      cases x <;> first | exact .ask trivial | exact trivial
    | ok sent =>
      refine .bind (.ask trivial) fun _ => .bind ?_ fun _ => ?_
      · exact .ite ⟨trivial, fun _ => trivial⟩ trivial
      · exact .bind ⟨trivial, fun _ => trivial⟩ fun _ => .bind (.request trivial) fun _ => trivial

theorem whole_callTrade (input : ExecuteIntentsInput) : Whole (fun _ => True) (callTrade env input) :=
  .bind (.attempt (whole_executeIntentsTrade input)) fun _ => .bind (.ask trivial) fun _ => .ofExcept _

theorem whole_afterFailure (deposit : DepositRef) (x : TradeError) :
    Whole (fun _ => True) (afterFailure env deposit x) := by
  cases x with
  | outcomeUnknown _ _ => exact .bind (.ask trivial) fun _ => ⟨trivial, fun _ => trivial⟩
  | alreadyUsed _ => exact trivial
  | _ => exact .ite trivial (.ask trivial)

theorem whole_submitPassword (s : Submission) : Whole (fun _ => True) (submitPassword env s) := by
  unfold submitPassword
  split
  · exact trivial
  refine ⟨trivial, fun prior => ?_⟩
  cases prior with
  | some _ => exact trivial
  | none =>
    refine .bind (.attempt ⟨trivial, fun now => .bind (.ofExcept _) fun _ => .bind ?_ fun _ => ?_⟩) fun r => ?_
    · exact .ite (.request trivial) trivial
    · exact .bind (.request trivial) fun _ => .bind (whole_callTrade _) fun _ => trivial
    · cases r with
      | ok _ => exact trivial
      | error x => exact whole_afterFailure _ x

theorem whole_body (env : Env) (e : TradeEntry) : Whole (fun _ => True) ((tradeSys env).body e) := by
  cases e with
  | trade input => exact (whole_callTrade input).detach
  | submit s => exact (whole_submitPassword s).detach
  | retire deposit => exact .ask trivial

/-! ## A deposit that has a hash -/

/-- The callback that shows the trade as pending does not throw. -/
def ShowsPending (out : Outside) : Prop := out (.phase .pending) = .ok ()

/-- What a call with the hash `h` has in its book until it settles. -/
structure Broadcast (h : String) (b : Book) : Prop where
  recorded : b.recorded = some { state := .broadcast, txHash := some h }
  threw : b.threw = false
  settled : b.settled = none

theorem Broadcast.note {e : TradeEntry} {b : Book} {h : String} (hb : Broadcast h b) {o : TradeOp}
    (ha : allowed e b o) (hs : ∀ result, o ≠ .settled result) {out : Outside} (hout : ShowsPending out) :
    Broadcast h (b.note o (out o)) := by
  cases o with
  | claim d =>
    have hrec := hb.recorded
    rw [ha.1] at hrec
    cases hrec
  | record d patch =>
    by_cases hsent : patch.state.isSent = true
    · obtain ⟨_, _, _, ⟨hnone, _⟩ | hsame⟩ := recordable_of_allowed ha hsent
      · exact absurd (hnone.symm.trans hb.recorded) nofun
      · rw [hb.recorded] at hsame
        cases hsame
        exact ⟨rfl, hb.threw, hb.settled⟩
    · simp only [Book.note, if_neg hsent]
      exact hb
  | phase p =>
    cases p with
    | pending =>
      rw [hout]
      exact hb
    | _ => exact hb
  | settled result => exact absurd rfl (hs result)
  | _ => exact hb

/-- From then on the call resolves with the hash, whatever it is answered. -/
theorem resolves {e : TradeEntry} {p : Prog TradeOp TradeOp.Ans Unit Unit} {b : Book} {h : String}
    (hp : tradeBooks.Keeps e p (fun _ => Closed) b) (hw : Whole (fun _ => True) p) (hb : Broadcast h b)
    (f : Nat → Outside) (hf : ∀ n, ShowsPending (f n)) :
    ∃ n trade, ⟨.settled (.ok trade), ()⟩ ∈ p.fed f n ∧ trade.sourceTxHash = h := by
  have hopen : ¬ Closed b := fun hc => hc (by rw [hb.recorded]; nofun) hb.settled
  induction p generalizing b f with
  | ret a => exact absurd (safe_ret.1 hp) hopen
  | fail x => exact absurd (safe_fail.1 hp) hopen
  | cut => exact hw.elim
  | call o k ih =>
    obtain ⟨ha, hk⟩ := keeps_call.1 hp
    by_cases hs : ∃ result, o = .settled result
    · obtain ⟨result, rfl⟩ := hs
      cases result with
      | ok trade =>
        refine ⟨1, trade, ?_, ?_⟩
        · rw [Prog.fed_call]
          exact List.mem_cons_self
        · have hrec := hb.recorded.symm.trans ha.2.2
          cases hrec
          rfl
      | error x =>
        have hthrew := ha.2.2 _ hb.recorded
        rw [hb.threw] at hthrew
        cases hthrew
    · have hb' : Broadcast h (b.note o (f 0 o)) := hb.note ha (fun result ho => hs ⟨result, ho⟩) (hf 0)
      have hopen' : ¬ Closed (b.note o (f 0 o)) := fun hc => hc (by rw [hb'.recorded]; nofun) hb'.settled
      obtain ⟨n, trade, hmem, hhash⟩ :=
        ih (f 0 o) (hk _ trivial) (hw.2 _) hb' (fun m => f (m + 1)) (fun m => hf (m + 1)) hopen'
      refine ⟨n + 1, trade, ?_, hhash⟩
      rw [Prog.fed_call]
      exact List.mem_cons_of_mem _ hmem

/-! ## Runs -/

theorem Answered.claims {w w' : TradeWorld} {i j : Nat} {o : TradeOp} {d : DepositRef} (hw : Answered w i o w')
    (hd : (w'.books j).claimed = some d) : (w.books j).claimed = some d ∨ j = i ∧ o = .claim d := by
  have hpart : ∀ {b : Book}, (Function.update w.books i b j).claimed = some d → b.claimed = (w.books i).claimed →
      (w.books j).claimed = some d := fun h hb => (part_update (·.claimed) hb j).symm.trans h
  cases hw with
  | quiet => exact .inl hd
  | claimed _ _ _ =>
    rcases book_cases (·.claimed = some d) hd with ⟨rfl, h⟩ | ⟨_, h⟩
    · cases h
      exact .inr ⟨rfl, rfl⟩
    · exact .inl h
  | sent _ _ => exact .inl (hpart hd rfl)
  | retired _ _ => exact .inl hd
  | threw => exact .inl (hpart hd rfl)
  | settled => exact .inl (hpart hd rfl)

/-- The operation is one on the record of the deposit. -/
def TradeOp.Of (d : DepositRef) (o : TradeOp) : Prop := o = .claim d ∨ ∃ patch, o = .record d patch

theorem Answered.made {w w' : TradeWorld} {i : Nat} {o : TradeOp} {key : String} (hw : Answered w i o w')
    (hkey : w'.attempts key ≠ none) : w.attempts key ≠ none ∨ ∃ d, intentsDepositKey d = key ∧ o.Of d := by
  have hupdate : ∀ {d : DepositRef} {r : Attempt},
      Function.update w.attempts (intentsDepositKey d) (some r) key ≠ none → o.Of d →
        w.attempts key ≠ none ∨ ∃ d, intentsDepositKey d = key ∧ o.Of d := by
    intro d r hne ho
    by_cases hk : key = intentsDepositKey d
    · exact .inr ⟨d, hk.symm, ho⟩
    · rw [Function.update_of_ne hk] at hne
      exact .inl hne
  cases hw with
  | quiet => exact .inl hkey
  | claimed _ _ _ => exact hupdate hkey (.inl rfl)
  | sent _ _ => exact hupdate hkey (.inr ⟨_, rfl⟩)
  | retired _ _ => exact hupdate hkey (.inr ⟨_, rfl⟩)
  | threw => exact .inl hkey
  | settled => exact .inl hkey

theorem TradeOp.Of.isFor {e : TradeEntry} {b : Book} {o : TradeOp} {d : DepositRef} (ho : o.Of d)
    (ha : allowed e b o) : e.IsFor d := by
  rcases ho with rfl | ⟨patch, rfl⟩
  · exact ha.2
  · exact ha.1

theorem TradeEntry.IsFor.unique {e : TradeEntry} {d d' : DepositRef} (h : e.IsFor d) (h' : e.IsFor d') : d = d' := by
  cases e with
  | trade input => exact OfQuote.unique h h'
  | submit s => exact OfQuote.unique h h'
  | retire retired => exact h.trans h'.symm

/-- Some task of the session is for a deposit with this key. -/
def Known (c : TradeCfg) (key : String) : Prop :=
  ∃ i e d, c.entryAt i = some e ∧ e.IsFor d ∧ intentsDepositKey d = key

structure Sound (c : TradeCfg) : Prop where
  consistent : Consistent c.world
  isFor : ∀ i d, (c.world.books i).claimed = some d → ∃ e, c.entryAt i = some e ∧ e.IsFor d
  known : ∀ key, c.world.attempts key ≠ none → Known c key

theorem sound_session : Sound session where
  consistent := consistent_session
  isFor := nofun
  known := fun _ h => absurd rfl h

/-- What one move of a session preserves. -/
theorem Sound.move (hs : Sound c) (hr : ReachOn (tradeSys env) InSession session c) {m : Move Outside TradeEntry}
    (hok : InSession c m) (hm : (tradeSys env).move c m = some c') : Sound c' ∧ Later c.world c'.world := by
  obtain ⟨hentry, hworld⟩ := hr.turn (trades_follow env) (fun _ => rfl) hok hm
  rcases hworld with hworld | ⟨i, e, o, out, he, ha, hworld⟩
  · rw [hworld]
    refine ⟨⟨hworld ▸ hs.consistent, fun j d hd => ?_, fun key hkey => ?_⟩, .refl _⟩
    · rw [hworld] at hd
      obtain ⟨e, he, hfor⟩ := hs.isFor j d hd
      exact ⟨e, hentry j e he, hfor⟩
    · rw [hworld] at hkey
      obtain ⟨j, e, d, he, hfor⟩ := hs.known key hkey
      exact ⟨j, e, d, hentry j e he, hfor⟩
  · have hans : Answered c.world i o c'.world := by
      rw [hworld]
      exact answered ..
    refine ⟨⟨hs.consistent.answered ha hans, fun j d hd => ?_, fun key hkey => ?_⟩, .answered hs.consistent ha hans⟩
    · rcases hans.claims hd with hd | ⟨rfl, rfl⟩
      · obtain ⟨e, he, hfor⟩ := hs.isFor j d hd
        exact ⟨e, hentry j e he, hfor⟩
      · exact ⟨e, hentry j e he, ha.2⟩
    · rcases hans.made hkey with hkey | ⟨d, hd, ho⟩
      · obtain ⟨j, e, d, he, hfor⟩ := hs.known key hkey
        exact ⟨j, e, d, hentry j e he, hfor⟩
      · exact ⟨i, e, d, hentry i e he, ho.isFor ha, hd⟩

theorem sound_reach (hr : ReachOn (tradeSys env) InSession session c) : Sound c :=
  hr.inv sound_session fun _ _ _ hr hs hok hm => (hs.move hr hok hm).1

theorem later_reach (hr : ReachOn (tradeSys env) InSession session c)
    (hr' : ReachOn (tradeSys env) InSession c c') : Later c.world c'.world := by
  have hboth := hr'.inv (P := fun c' => ReachOn (tradeSys env) InSession session c' ∧ Later c.world c'.world)
    ⟨hr, .refl _⟩ fun c₁ m c₂ _ ⟨hr₁, hl⟩ hok hm =>
      ⟨hr₁.step m hok hm, hl.trans ((sound_reach hr₁).move hr₁ hok hm).2⟩
  exact hboth.2

/-! ## The session -/

/-- Task `i` is at a step that builds, signs or broadcasts, and it is for the deposit `d`. -/
def Deposits (c : TradeCfg) (i : Nat) (d : DepositRef) : Prop :=
  ∃ t o k, c.tasks[i]? = some t ∧ t.prog = .call o k ∧ o.deposits = true ∧ t.entry.IsFor d

/-- The deposit of task `i` has the hash `h`, which is recorded or is the next thing that is. -/
def HasHash (c : TradeCfg) (i : Nat) (h : String) : Prop :=
  (c.world.books i).recorded = some { state := .broadcast, txHash := some h } ∨
    ∃ t d k, c.tasks[i]? = some t ∧ t.prog = .call (.record d { state := .broadcast, txHash := some h }) k

/-- What holds after every run of a session. -/
structure OneDeposit (c : TradeCfg) : Prop where
  /-- one call at most gets past the claim of a pair -/
  once : ∀ i j d d', (c.world.books i).claimed = some d → (c.world.books j).claimed = some d' → d.pair = d'.pair → i = j
  /-- only it builds, signs or broadcasts -/
  deposits : ∀ i d, Deposits c i d → (c.world.books i).claimed = some d
  /-- and only it resolves -/
  refused : ∀ i trade, (c.world.books i).settled = some (.ok trade) → (c.world.books i).claimed = some trade.deposit
  /-- a deposit is blocked by a call or a retirement for it, and by none for another memo at its address -/
  blocked : ∀ d, c.world.attempts (intentsDepositKey d) ≠ none → ∃ i e d', c.entryAt i = some e ∧ e.IsFor d' ∧
    (normalAddress d'.depositAddress = normalAddress d.depositAddress → memoOf d'.depositMemo = memoOf d.depositMemo)
  /-- a call with a hash settles with it, whatever it is answered -/
  resolves : ∀ i h, HasHash c i h → (c.world.books i).threw = false →
    (∀ r, (c.world.books i).settled = some r → ∃ trade, r = .ok trade ∧ trade.sourceTxHash = h) ∧
    ((c.world.books i).settled = none → ∀ t, c.tasks[i]? = some t → ∀ f : Nat → Outside, (∀ n, ShowsPending (f n)) →
      ∃ n trade, ⟨.settled (.ok trade), ()⟩ ∈ t.prog.fed f n ∧ trade.sourceTxHash = h)
  unknown : ∀ i m h, (c.world.books i).settled = some (.error (.outcomeUnknown m h)) → ∃ d r,
    (c.world.books i).claimed = some d ∧ c.world.attempts (intentsDepositKey d) = some r ∧ r.state = .unknown ∧ r.txHash = h

/-- Where a deposit has no claim, a step of it is none of the deposit itself. -/
theorem claimed_of_deposits {e : TradeEntry} {b : Book} {o : TradeOp} (ha : allowed e b o) (ho : o.deposits = true) :
    b.claimed.isSome := by
  cases o <;> first | exact ha rfl | cases ho

/-- A call with a hash that is not recorded yet is about to record it. -/
theorem HasHash.cases {i : Nat} {h : String} (hh : HasHash c i h)
    (hplaced : ∀ t, c.tasks[i]? = some t → tradeBooks.Placed t (c.world.books i)) :
    (c.world.books i).recorded = some { state := .broadcast, txHash := some h } ∨
      (c.world.books i).settled = none ∧ ∃ t d k, c.tasks[i]? = some t ∧
        t.prog = .call (.record d { state := .broadcast, txHash := some h }) k := by
  rcases hh with hrec | ⟨t, d, k, ht, hprog⟩
  · exact .inl hrec
  · have hk := (hplaced t ht).keeps
    rw [hprog] at hk
    obtain ⟨_, _, _, ⟨_, hset⟩ | hsame⟩ := recordable_of_allowed (keeps_call.1 hk).1 rfl
    · exact .inr ⟨hset, t, d, k, ht, hprog⟩
    · exact .inl hsame

theorem settles_with_hash (hs : Consistent c.world) {i : Nat} {h : String}
    (hrec : (c.world.books i).recorded = some { state := .broadcast, txHash := some h })
    (hthrew : (c.world.books i).threw = false) {r : Except TradeError IntentsTrade}
    (hset : (c.world.books i).settled = some r) : ∃ trade, r = .ok trade ∧ trade.sourceTxHash = h := by
  have hacc := hs.settles i r hset
  cases r with
  | ok trade =>
    have hsame := hrec.symm.trans hacc.2
    cases hsame
    exact ⟨trade, rfl, rfl⟩
  | error x =>
    have htrue := hacc.2 (some h) hrec
    rw [hthrew] at htrue
    cases htrue

theorem oneDeposit_reach (hr : ReachOn (tradeSys env) InSession session c) : OneDeposit c := by
  have hs : Sound c := sound_reach hr
  have hplaced := (hr.placed (trades_follow env) fun _ => rfl).1
  refine ⟨fun i j d d' hd hd' hpair => ?_, fun i d hdep => ?_, fun i trade hset => ?_, fun d hd => ?_,
    fun i h hhash hthrew => ⟨fun r hset => ?_, fun hset t ht f hf => ?_⟩, fun i m h hset => ?_⟩
  · exact hs.consistent.once i j d d' hd hd' (key_of_pair hpair)
  · obtain ⟨⟨e, p, asked⟩, o, k, ht, rfl, ho, hfor⟩ := hdep
    have ha := (keeps_call.1 (hplaced i _ ht).keeps).1
    obtain ⟨d', hd'⟩ := Option.isSome_iff_exists.1 (claimed_of_deposits ha ho)
    obtain ⟨e', he', hfor'⟩ := hs.isFor i d' hd'
    rw [entryAt_of_task ht] at he'
    cases he'
    rw [hfor.unique hfor']
    exact hd'
  · exact (hs.consistent.settles i _ hset).1
  · obtain ⟨i, e, d', he, hfor, hkey⟩ := hs.known _ hd
    exact ⟨i, e, d', he, hfor, fun ha => memo_of_key ha hkey⟩
  · rcases hhash.cases (hplaced i) with hrec | ⟨hnone, _⟩
    · exact settles_with_hash hs.consistent hrec hthrew hset
    · exact absurd (hnone.symm.trans hset) nofun
  · have hk := (hplaced i t ht).keeps
    have hw := hr.whole (whole_body env) ht
    rcases hhash.cases (hplaced i) with hrec | ⟨_, t', d, k, ht', hprog⟩
    · exact resolves hk hw ⟨hrec, hthrew, hset⟩ f hf
    · -- the record comes first
      rw [ht] at ht'
      cases ht'
      rw [hprog] at hk hw ⊢
      obtain ⟨n, trade, hmem, hh⟩ := resolves ((keeps_call.1 hk).2 () trivial) (hw.2 ()) ⟨rfl, hthrew, hset⟩
        (fun m => f (m + 1)) fun m => hf (m + 1)
      refine ⟨n + 1, trade, ?_, hh⟩
      rw [Prog.fed_call]
      exact List.mem_cons_of_mem _ hmem
  · have hrec := (hs.consistent.settles i _ hset).1 m h rfl
    obtain ⟨_, d, r, hd, hr', hstate, hhash⟩ := hs.consistent.held i _ hrec
    exact ⟨d, r, hd, hr', hstate, hhash⟩

def sampleSource : String := "0x52908400098527886e0f7030069857d2e4169ee7"
def sampleDeposit : String := "0x8617e340b3d01fa5f11f306f4090fd50e238070d"
def sampleRaw : String := "0x02f86b01"
def sampleHash : String := "0x88df016429689c079f3b2f6ad39fa052532c56795b733da78a91ebe6a713944b"

def sampleCoin : SwapCoinMeta where
  ticker := "ETH"
  chainKind := .evm
  nearIntentsAsset := some "nep141:eth.omft.near"
  evmChainId := some 1
  decimals := 18
  defaultRpcUrl := some "https://ethereum-rpc.publicnode.com"
  rpcFallbacks := []
  tokenContract := none
  tsSourceSigner := none
  walletsByChainKey := none

def sampleAsset : CatalogAsset where
  assetId := "nep141:eth.omft.near"
  blockchain := "eth"
  decimals := 18
  contractAddress := none

/-- One coin, and one signed deposit of it. -/
def sampleEnv : Env where
  loc := .ascii
  swapCoinMeta asset := if asset = "ETH" then some sampleCoin else none
  getSwapCoinMeta _ _ := none
  lookupByAssetId id := if id = sampleAsset.assetId then some sampleAsset else none
  hotOmniChain _ := none
  dateParse text := if text = "2027-01-01T00:00:00Z" then some 1798761600000 else none
  decodeEvmSignedTx raw :=
    if raw = sampleRaw then .ok { txTo := sampleDeposit, value := 10 ^ 18, data := "0x" }
    else .error (.plain "unsupported transaction type")
  evmTxHash _ := sampleHash
  evmBroadcastRefusedEverywhere _ := false
  isDefinitiveBroadcastRefusal _ := false
  isPublicKey _ := false
  verifySolana _ _ _ := false
  nearRpcs := []
  parseNearRecipient text := .ok (text, false)
  nearTxHash _ := ""
  verifyNear _ _ _ := false
  isStellarAddress _ := false
  encodeStellarKey key := key
  verifyStellar _ _ _ := false
  suiAddressFromPublicKey key := key
  tickerToChain _ := none
  stablecoinContract _ := none
  wrongPasswordText _ := false

def sampleInput : ExecuteIntentsInput where
  sessionId := "s"
  fromAsset := "ETH"
  intentsQuote :=
    { depositAddress := some sampleDeposit, depositMemo := none, amountIn := some "1000000000000000000"
      deadline := some "2027-01-01T00:00:00Z" }
  sourceAddress := sampleSource
  userIntendedAtomic := 10 ^ 18
  fromBlockchain := none
  rpcUrlOverride := none
  account := none
  index := none
  sourceSecret := none
  quoteRequest := some
    { originAsset := "nep141:eth.omft.near", destinationAsset := "nep141:btc.omft.near"
      amount := "1000000000000000000", recipient := "bc1q", refundTo := sampleSource, deadline := none
      depositMode := none }
  quoteEcho := none
  destinationAsset := "nep141:btc.omft.near"
  destinationAddress := "bc1q"
  hasOnBroadcast := true

/-- An outside that answers nothing. -/
def silent : Outside
  | .attempt _ => none
  | .claim _ => .ok ()
  | .record .. | .settled _ => ()
  | .now => (0 : Int)
  | .evmTransactionKnown .. | .solanaSignatureSeen .. => false
  | .waitForNearOutcome .. => .unknown
  | .submitStellar .. | .executeSui .. | .executeUtxoTransfer .. | .adapterSend _ => .error (.plain "")
  | .phase _ | .onBroadcast _ | .notify .. | .evmRpc .. | .signEvm .. | .broadcastEvmVerified .. | .getSolanaAddress _
  | .solanaBlockhash _ | .solanaTokenAccount .. | .signSolana .. | .broadcastSolana .. | .getNearAddress _
  | .viewNearAccount .. | .nearAccessKey .. | .nearStatus _ | .nep141State .. | .signNear .. | .broadcastNear ..
  | .getStellarAddress _ | .horizonSequence .. | .horizonAccountExists _ | .signStellar .. | .getSuiAddress _
  | .buildSuiTransfer .. | .signSui .. | .accountSendAvailable .. | .getUtxoAddress .. | .checkXrpPayout | .unlockSwap _
  | .writeIntentsRow .. => .error "no answer"

/-- The chain takes the deposit, and the relay does not answer. -/
def sampleOutside : Outside
  | .now => (1798758000000 : Int)
  | .phase _ => .ok ()
  | .evmRpc _ (.getBalance _) => .ok "0x1bc16d674ec80000"
  | .evmRpc _ (.estimateGas ..) => .ok "0x5208"
  | .evmRpc _ (.getTransactionCount _) => .ok "0x0"
  | .evmRpc _ _ => .ok "0x3b9aca00"
  | .signEvm .. => .ok sampleRaw
  | .broadcastEvmVerified .. => .ok sampleHash
  | o => silent o

/-- Two calls for one quote, and a retirement while the first signs. -/
def sampleMoves : List (Move Outside TradeEntry) :=
  .start (.trade sampleInput) :: .start (.trade sampleInput) ::
    .start (.retire { depositAddress := sampleDeposit, depositMemo := none }) ::
    turns 0 (List.replicate 6 sampleOutside) ++ turns 1 (List.replicate 4 sampleOutside) ++
    turns 2 [sampleOutside] ++ turns 0 (List.replicate 12 sampleOutside)

def sampleEnd : TradeCfg := (tradeSys sampleEnv).play session sampleMoves

instance (c : TradeCfg) : ∀ m, Decidable (InSession c m)
  | .start _ | .ask _ | .answer .. => .isTrue trivial
  | .crash => .isFalse id

end Intents
