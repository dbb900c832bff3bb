import PwndaWallet.Intents.Execute
import Mathlib.Tactic.NormNum
import Mathlib.Tactic.Positivity
import PwndaWallet.Lib.Result

/-!
# What the checks of a quote establish

One lemma for each check that lets a quote through. The amounts are compared as doubles, so the one per
cent between them has the width of a rounding.
-/

namespace Intents

open Js Double

variable {env : Env} {reg : Registry}

/-! ## The amount -/

/-- Half of the distance between one and the next double. -/
abbrev ulp : ℚ := 1 / 2 ^ 53

theorem nearest_le {x : ℚ} (hx : 0 < x) : nearest x ≤ x * (1 + ulp) := by
  have h := (abs_le.1 (nearest_error hx)).2
  simp only [ulp]
  linarith

theorem le_nearest {x : ℚ} (hx : 0 < x) : x * (1 - ulp) ≤ nearest x := by
  have h := (abs_le.1 (nearest_error hx)).1
  simp only [ulp]
  linarith

theorem nearest_pos {x : ℚ} (hx : 0 < x) : 0 < nearest x := by
  have hpos : (0 : ℚ) < 1 - ulp := by norm_num [ulp]
  exact lt_of_lt_of_le (mul_pos hx hpos) (le_nearest hx)

theorem upper_bound : nearest (1 + quoteAmountDriftTolerance) ≤ (1 + 1 / 100 * (1 + ulp)) * (1 + ulp) := by
  have htol : (0 : ℚ) < quoteAmountDriftTolerance := nearest_pos (by norm_num)
  have hle : quoteAmountDriftTolerance ≤ 1 / 100 * (1 + ulp) := nearest_le (by norm_num)
  refine (nearest_le (by linarith)).trans ?_
  have hulp : (0 : ℚ) < 1 + ulp := by norm_num [ulp]
  exact mul_le_mul_of_nonneg_right (by linarith) hulp.le

theorem lower_bound : (1 - 1 / 100 * (1 + ulp)) * (1 - ulp) ≤ nearest (1 - quoteAmountDriftTolerance) := by
  have hle : quoteAmountDriftTolerance ≤ 1 / 100 * (1 + ulp) := nearest_le (by norm_num)
  have hsmall : (1 : ℚ) / 100 * (1 + ulp) < 1 := by norm_num [ulp]
  refine le_trans ?_ (le_nearest (by linarith))
  have hulp : (0 : ℚ) < 1 - ulp := by norm_num [ulp]
  exact mul_le_mul_of_nonneg_right (by linarith) hulp.le

/-- The roundings of two amounts and of their quotient. -/
theorem quotient_bounds {q u : ℚ} (hq : 0 < q) (hu : 0 < u) :
    q * (1 - ulp) * (1 - ulp) ≤ nearest (nearest q / nearest u) * (u * (1 + ulp)) ∧
      nearest (nearest q / nearest u) * (u * (1 - ulp)) ≤ q * (1 + ulp) * (1 + ulp) := by
  have hN : 0 < nearest q := nearest_pos hq
  have hM : 0 < nearest u := nearest_pos hu
  have hr : 0 < nearest q / nearest u := div_pos hN hM
  have hR : 0 < nearest (nearest q / nearest u) := nearest_pos hr
  have hcancel : nearest q / nearest u * nearest u = nearest q := div_mul_cancel₀ _ hM.ne'
  have hdown : (0 : ℚ) < 1 - ulp := by norm_num [ulp]
  have hup : (0 : ℚ) < 1 + ulp := by norm_num [ulp]
  constructor
  · calc q * (1 - ulp) * (1 - ulp)
        ≤ nearest q * (1 - ulp) := mul_le_mul_of_nonneg_right (le_nearest hq) hdown.le
      _ = nearest q / nearest u * (1 - ulp) * nearest u := by rw [mul_right_comm, hcancel]
      _ ≤ nearest (nearest q / nearest u) * nearest u := mul_le_mul_of_nonneg_right (le_nearest hr) hM.le
      _ ≤ nearest (nearest q / nearest u) * (u * (1 + ulp)) := mul_le_mul_of_nonneg_left (nearest_le hu) hR.le
  · calc nearest (nearest q / nearest u) * (u * (1 - ulp))
        ≤ nearest (nearest q / nearest u) * nearest u := mul_le_mul_of_nonneg_left (le_nearest hu) hR.le
      _ ≤ nearest q / nearest u * (1 + ulp) * nearest u := mul_le_mul_of_nonneg_right (nearest_le hr) hM.le
      _ = nearest q * (1 + ulp) := by rw [mul_right_comm, hcancel]
      _ ≤ q * (1 + ulp) * (1 + ulp) := mul_le_mul_of_nonneg_right (nearest_le hq) hup.le

theorem within_of_quotient {q u : ℚ} (hq : 0 < q) (hu : 0 < u)
    (hlo : nearest (1 - quoteAmountDriftTolerance) ≤ nearest (nearest q / nearest u))
    (hhi : nearest (nearest q / nearest u) ≤ nearest (1 + quoteAmountDriftTolerance)) :
    |q - u| ≤ u * (1 / 100 + 1 / 2 ^ 50) := by
  obtain ⟨hupper, hlower⟩ := quotient_bounds hq hu
  have hleft : (0 : ℚ) ≤ u * (1 + ulp) := mul_nonneg hu.le (by norm_num [ulp])
  have hright : (0 : ℚ) ≤ u * (1 - ulp) := mul_nonneg hu.le (by norm_num [ulp])
  have hmax := hupper.trans (mul_le_mul_of_nonneg_right (hhi.trans upper_bound) hleft)
  have hmin := (mul_le_mul_of_nonneg_right (lower_bound.trans hlo) hright).trans hlower
  have hceil : q ≤ u * (1 + 1 / 100 + 1 / 2 ^ 50) := by
    refine le_of_mul_le_mul_right ?_ (by norm_num [ulp] : (0 : ℚ) < (1 - ulp) * (1 - ulp))
    norm_num [ulp] at hmax ⊢
    linarith
  have hfloor : u * (1 - 1 / 100 - 1 / 2 ^ 50) ≤ q := by
    refine le_of_mul_le_mul_right ?_ (by norm_num [ulp] : (0 : ℚ) < (1 + ulp) * (1 + ulp))
    norm_num [ulp] at hmin ⊢
    linarith
  rw [abs_le]
  constructor
  · linarith
  · linarith

/-- What the check lets through differs by one per cent, and one part in `2 ^ 50` for the roundings. -/
theorem within_of_band {quote user : Nat} (hu : 0 < user) (h : ratioInBand quote user = true) :
    |(quote : ℚ) - user| ≤ user * (1 / 100 + 1 / 2 ^ 50) := by
  unfold ratioInBand number at h
  split at h
  · rename_i q u hq hm
    split at hq
    · cases hq
      split at hm
      · cases hm
        simp only [Bool.and_eq_true, decide_eq_true_eq] at h
        obtain ⟨hlo, hhi⟩ := h
        rcases Nat.eq_zero_or_pos quote with rfl | hpos
        · -- nothing is not almost everything
          have hlow := lower_bound.trans hlo
          rw [Nat.cast_zero, nearest_zero, zero_div, nearest_zero] at hlow
          norm_num [ulp] at hlow
        · exact within_of_quotient (by exact_mod_cast hpos) (by exact_mod_cast hu) hlo hhi
      · cases hm
    · cases hq
  · cases h

theorem within_of_intent {quote : Nat} {user : Int} (h : assertQuoteAmountMatchesUserIntent quote user = .ok ()) :
    |(quote : ℚ) - user| ≤ user * (1 / 100 + 1 / 2 ^ 50) := by
  unfold assertQuoteAmountMatchesUserIntent at h
  dsimp only at h
  by_cases hpos : user ≤ 0
  · rw [if_pos hpos] at h
    cases h
  · rw [if_neg hpos] at h
    split at h
    · cases h
    split at h
    · cases h
    split at h
    · rename_i hband
      have hcast : ((user.toNat : Nat) : ℚ) = user := by
        have htoNat : (user.toNat : Int) = user := Int.toNat_of_nonneg (by omega)
        exact_mod_cast htoNat
      have hwithin := within_of_band (by omega) hband
      rwa [hcast] at hwithin
    · cases h

/-! ## The asset -/

/-- Both are native, or both name the contract. -/
def AgreeOnContract : Option String → Option String → Prop
  | none, none => True
  | some catalogContract, some registryContract => sameContract catalogContract registryContract = true
  | _, _ => False

/-- The catalog's entry for the coin's asset has the coin's decimals, and the contract. -/
def Catalogued (env : Env) (coin : SwapCoinMeta) (contract : Option String) : Prop :=
  ∃ entry, coin.nearIntentsAsset = some entry.assetId ∧ env.lookupByAssetId entry.assetId = some entry ∧
    coin.decimals = entry.decimals ∧ contract = trimmed entry.contractAddress ∧
    AgreeOnContract contract (trimmed coin.tokenContract)

theorem catalogued_of_matches {coin : SwapCoinMeta} {contract : Option String}
    (h : assertSourceMetaMatchesCatalog coin ((truthy coin.nearIntentsAsset).bind env.lookupByAssetId) = .ok contract) :
    Catalogued env coin contract := by
  unfold assertSourceMetaMatchesCatalog at h
  split at h
  · rename_i asset entry hasset hentry
    rw [hasset, Option.bind_some] at hentry
    split at h
    · cases h
    rename_i hid
    split at h
    · cases h
    rename_i hdecimals
    rw [ne_eq, not_not] at hid hdecimals
    subst hid
    refine ⟨entry, (truthy_eq_some.1 hasset).1, hentry, hdecimals.symm, ?_⟩
    split at h
    · rename_i hc hr
      cases h
      rw [hc, hr]
      exact ⟨rfl, trivial⟩
    · rename_i hc hr
      split at h
      · rename_i hsame
        cases h
        rw [hc, hr]
        exact ⟨rfl, hsame⟩
      · cases h
    · cases h
  · cases h

/-! ## The request -/

/-- The request that the quote answers is the swap that is confirmed. -/
structure Binds (env : Env) (input : ExecuteIntentsInput) (coin : SwapCoinMeta) (request : IntentsQuoteRequestEcho) :
    Prop where
  originAsset : coin.nearIntentsAsset = some request.originAsset
  destinationAsset : request.destinationAsset = input.destinationAsset
  amount : (digits 10 (trim request.amount.toList)).map Int.ofNat = some input.userIntendedAtomic
  recipient : sameAddress env.toRegistry request.recipient input.destinationAddress = true
  refundTo : sameAddress env.toRegistry request.refundTo input.sourceAddress = true
  depositMode : request.depositMode.getD .simple = intentsDepositModeFor env.toRegistry coin.nearIntentsAsset

/-- What 1Click says that it answered is the request, as far as it says so. -/
structure Echoes (env : Env) (request : IntentsQuoteRequestEcho) (echo : QuoteEcho) : Prop where
  originAsset : ∀ a, echo.originAsset = some a → a = request.originAsset
  destinationAsset : ∀ a, echo.destinationAsset = some a → a = request.destinationAsset
  amount : ∀ a, echo.amount = some a → trim a.toList = trim request.amount.toList
  recipient : ∀ a, echo.recipient = some a → sameAddress env.toRegistry a request.recipient = true
  refundTo : ∀ a, echo.refundTo = some a → sameAddress env.toRegistry a request.refundTo = true
  depositMode : ∀ m, echo.depositMode = some m → m = request.depositMode.getD .simple

theorem of_no_mismatch {c : Prop} [Decidable c] {m : Mismatch} (h : (if c then [] else [m]) = ([] : List Mismatch)) : c := by
  by_contra hc
  rw [if_neg hc] at h
  cases h

theorem binds_of_assert {input : ExecuteIntentsInput} {coin : SwapCoinMeta} {request : IntentsQuoteRequestEcho}
    (h : assertQuoteBinding env.toRegistry (some request) (expectation input coin) = .ok ()) :
    Binds env input coin request := by
  unfold assertQuoteBinding at h
  dsimp only at h
  split at h
  · rename_i hnone
    unfold quoteBindingMismatches at hnone
    simp only [List.append_eq_nil_iff, and_assoc] at hnone
    obtain ⟨horigin, hdest, hamount, hrecipient, hrefund, hmode⟩ := hnone
    have hdest : truthy (some input.destinationAsset) = some request.destinationAsset := of_no_mismatch hdest
    have hamount : atomicEquals request.amount input.userIntendedAtomic = true := of_no_mismatch hamount
    refine ⟨(truthy_eq_some.1 (of_no_mismatch horigin)).1, ?_, ?_, of_no_mismatch hrecipient, of_no_mismatch hrefund,
      of_no_mismatch hmode⟩
    · exact (Option.some.inj (truthy_eq_some.1 hdest).1).symm
    · unfold atomicEquals at hamount
      simp only [Bool.and_eq_true, beq_iff_eq] at hamount
      exact hamount.2
  · cases h

theorem of_echoed {α : Type} {field : Option α} {same : α → Bool} {m : Mismatch} (h : echoed field same m = []) :
    ∀ a, field = some a → same a = true := by
  rintro a rfl
  exact of_no_mismatch h

theorem echoes_of_assert {request : IntentsQuoteRequestEcho} {echo : QuoteEcho}
    (h : assertEcho env.toRegistry request (some echo) = .ok ()) : Echoes env request echo := by
  unfold assertEcho at h
  split at h
  · rename_i hnone
    unfold echoMismatches at hnone
    simp only [List.append_eq_nil_iff, and_assoc] at hnone
    obtain ⟨horigin, hdest, hamount, hrecipient, hrefund, hmode⟩ := hnone
    exact
      { originAsset := fun a ha => beq_iff_eq.1 (of_echoed horigin a ha)
        destinationAsset := fun a ha => beq_iff_eq.1 (of_echoed hdest a ha)
        amount := fun a ha => beq_iff_eq.1 (of_echoed hamount a ha)
        recipient := of_echoed hrecipient
        refundTo := of_echoed hrefund
        depositMode := fun m hm => beq_iff_eq.1 (of_echoed hmode m hm) }
  · cases h

/-! ## The window -/

/-- At `now` the window is open for as long as a deposit needs to land. -/
def WindowOpen (env : Env) (deadline : Option String) (chainKind : ChainKind) (now : Int) : Prop :=
  ∃ text closes, deadline = some text ∧ env.dateParse text = some closes ∧ landingMinutes chainKind * 60000 ≤ closes - now

theorem windowOpen_of_assert {deadline : Option String} {chainKind : ChainKind} {now : Int}
    (h : assertDepositWindowOpen env.toRegistry deadline chainKind now = .ok ()) : WindowOpen env deadline chainKind now := by
  unfold assertDepositWindowOpen at h
  split at h
  · cases h
  · rename_i closes hcloses
    split at h
    · cases h
    · obtain ⟨text, htext, hparse⟩ := Option.bind_eq_some_iff.1 hcloses
      exact ⟨text, closes, (truthy_eq_some.1 htext).1, hparse, by omega⟩

/-! ## The quote -/

/-- What the checks before the claim establish. -/
structure Checked (env : Env) (input : ExecuteIntentsInput) (now : Int) (q : Cleared) : Prop where
  coin : fromMeta env input = some q.coin
  address : truthy input.intentsQuote.depositAddress = some q.deposit.depositAddress
  memo : depositMemoToAttach (input.quoteRequest.bind (·.depositMode)) input.intentsQuote.depositMemo q.coin.chainKind =
    .ok q.deposit.depositMemo
  amountIn : input.intentsQuote.amountIn = some q.amountIn
  amount : atomicStringToBigInt q.amountIn = .ok q.amount
  catalogued : Catalogued env q.coin q.contract
  meant : |(q.amount : ℚ) - input.userIntendedAtomic| ≤ input.userIntendedAtomic * (1 / 100 + 1 / 2 ^ 50)
  request : ∃ request, input.quoteRequest = some request ∧ Binds env input q.coin request ∧
    (∀ echo, input.quoteEcho = some echo → Echoes env request echo) ∧
    WindowOpen env (input.intentsQuote.deadline <|> request.deadline) q.coin.chainKind now

theorem quotedAsset_ok {input : ExecuteIntentsInput} {coin : SwapCoinMeta} {depositAddress amountIn : String}
    {contract : Option String} (h : quotedAsset env input = .ok (coin, depositAddress, amountIn, contract)) :
    fromMeta env input = some coin ∧ truthy input.intentsQuote.depositAddress = some depositAddress ∧
      input.intentsQuote.amountIn = some amountIn ∧ Catalogued env coin contract := by
  unfold quotedAsset at h
  split at h
  · cases h
  rename_i hmeta
  split at h
  · cases h
  · cases h
  · rename_i haddress hamount
    obtain ⟨_, hmatches, h⟩ := Rust.ok_of_bind h
    obtain ⟨_, _, h⟩ := Rust.ok_of_bind h
    cases h
    exact ⟨hmeta, haddress, (truthy_eq_some.1 hamount).1, catalogued_of_matches hmatches⟩

theorem assertBound_ok {input : ExecuteIntentsInput} {coin : SwapCoinMeta} {request : IntentsQuoteRequestEcho}
    (h : assertBound env input coin = .ok request) : input.quoteRequest = some request ∧ Binds env input coin request ∧
      ∀ echo, input.quoteEcho = some echo → Echoes env request echo := by
  obtain ⟨_, hbinding, h⟩ := Rust.ok_of_bind h
  split at h
  · cases h
  · rename_i request' hrequest
    obtain ⟨_, hecho, h⟩ := Rust.ok_of_bind h
    cases h
    rw [hrequest] at hbinding
    refine ⟨hrequest, binds_of_assert hbinding, fun echo he => ?_⟩
    rw [he] at hecho
    exact echoes_of_assert hecho

theorem checked_of_clear {input : ExecuteIntentsInput} {now : Int} {q : Cleared} (h : clear env input now = .ok q) :
    Checked env input now q := by
  obtain ⟨⟨coin, depositAddress, amountIn, contract⟩, hasset, h⟩ := Rust.ok_of_bind h
  obtain ⟨request, hbound, h⟩ := Rust.ok_of_bind h
  obtain ⟨memo, hmemo, h⟩ := Rust.ok_of_bind h
  obtain ⟨_, hopen, h⟩ := Rust.ok_of_bind h
  obtain ⟨amount, hamount, h⟩ := Rust.ok_of_bind h
  obtain ⟨_, hintent, h⟩ := Rust.ok_of_bind h
  cases h
  obtain ⟨hmeta, haddress, hin, hcatalogued⟩ := quotedAsset_ok hasset
  obtain ⟨hrequest, hbinds, hecho⟩ := assertBound_ok hbound
  refine ⟨hmeta, haddress, ?_, hin, hamount, hcatalogued, within_of_intent hintent, request, hrequest, hbinds, hecho,
    windowOpen_of_assert hopen⟩
  rw [hrequest]
  exact hmemo

end Intents
