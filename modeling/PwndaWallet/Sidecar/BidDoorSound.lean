import PwndaWallet.Lib.Trace
import PwndaWallet.Sidecar.BidDoor
import PwndaWallet.Lib.Result

/-!
# What reaches `bids/new`

`bid_door`: one POST at most, of a body that the door built, for an offer that the engine's own copy lets through.
-/

namespace BidDoor

open Rust Tasks

variable {env : Env} {req : BidRequest}

/-! ## What the door promises -/

/-- The engine's copy of the offer lets the bid through. -/
structure Fits (env : Env) (req : BidRequest) (offer : Json) (nowSecs : Nat) (amount rate : ℚ) : Prop where
  named : ∀ got, fieldStr offer "offer_id" = some got → eqIgnoreAsciiCase got req.offerId = true
  unexpired : offer.get "is_expired" ≠ some (.bool true)
  unrevoked : offer.get "is_revoked" ≠ some (.bool true)
  notOwn : offer.get "is_own_offer" ≠ some (.bool true)
  inTime : ∀ t, (offer.get "expire_at").bind Json.asU64 = some t → nowSecs < t
  rate : ∃ r, fieldDecimal env offer "rate" = some (.fin r) ∧ 0 < r ∧
    (drift (.fin rate) (.fin r)).le BID_RATE_TOLERANCE = true
  size : ∃ x, fieldDecimal env offer "amount_from" = some x ∧ ∀ q, x = .fin q → amount ≤ q
  minimum : ∀ q, fieldDecimal env offer "min_bid_amount" = some (.fin q) → 0 < q → q ≤ amount

/-- The connection is what the node reports, where the coin's rule depends on it. -/
def Connected (h : List (Ev BidOp.Ans)) (offer : Json) (connection : Option String) : Prop :=
  match (receiveTicker offer).filter payoutNeedsConnection with
  | some ticker => ∃ reply : Except String Json, ⟨.wallets, reply⟩ ∈ h ∧
      connection = reply.toOption.bind (reportedConnection · ticker)
  | none => connection = none

/-- The body has the built keys with the values of the request. -/
structure BodyOf (req : BidRequest) (body : Json) : Prop where
  keys : ∃ fields, body = .obj fields ∧ (fields.map (·.1)).Sublist
    ["offer_id", "amount_from", "rate", "destination_address", "valid_for_seconds"]
  offerId : body.get "offer_id" = some (.str req.offerId)
  amountFrom : body.get "amount_from" = some (.str (trim req.amountFrom))
  rate : body.get "rate" = some (.str (trim req.rate))
  destination : body.get "destination_address" = req.addrTo.map fun a => .str (trim a)
  validity : body.get "valid_for_seconds" = req.validForSeconds.map fun v => .str (toString v)

/-- What was checked before the body is posted. -/
structure Reviewed (env : Env) (req : BidRequest) (h : List (Ev BidOp.Ans)) (body : Json) : Prop where
  offerId : isBidObjectId req.offerId = true
  validity : ∀ v, req.validForSeconds = some v → 600 ≤ v ∧ v ≤ 86400
  offer : ∃ amount rate status text reply offer now,
    parsePositiveDecimal req.amountFrom = .ok (.fin amount) ∧ 0 < amount ∧
    parsePositiveDecimal req.rate = .ok (.fin rate) ∧ 0 < rate ∧
    ⟨.getOffer req.offerId, .answered status text⟩ ∈ h ∧ isSuccess status = true ∧ env.fromStr text = .ok reply ∧
    offerFromReply reply req.offerId = .ok offer ∧ ⟨.nowSecs, now⟩ ∈ h ∧ Fits env req offer now amount rate ∧
    ∀ a, req.addrTo = some a → ∃ connection, Connected h offer connection ∧
      ∀ check ∈ PAYOUT_CHECKS, check (payoutCase offer a connection) = none
  body : BodyOf req body

/-- The bodies that were posted. -/
def posted (h : List (Ev BidOp.Ans)) : List Json :=
  h.filterMap fun
    | ⟨.post body, _⟩ => some body
    | _ => none

/-- The engine's copy says all that the bid needs. -/
structure Said (env : Env) (req : BidRequest) (offer : Json) (nowSecs : Nat) (amount : ℚ) : Prop where
  named : ∃ got, fieldStr offer "offer_id" = some got ∧ eqIgnoreAsciiCase got req.offerId = true
  unexpired : offer.get "is_expired" = some (.bool false)
  unrevoked : offer.get "is_revoked" = some (.bool false)
  notOwn : offer.get "is_own_offer" = some (.bool false)
  inTime : ∃ t, (offer.get "expire_at").bind Json.asU64 = some t ∧ nowSecs < t
  size : ∃ q, fieldDecimal env offer "amount_from" = some (.fin q) ∧ amount ≤ q
  minimum : ∀ x, fieldDecimal env offer "min_bid_amount" = some x → ∃ q, x = .fin q ∧ 0 < q ∧ q ≤ amount

/-! ## The checks -/

theorem parse_ok {s : String} {v : F64} (h : parsePositiveDecimal s = .ok v) : ∃ q, v = .fin q ∧ 0 < q := by
  unfold parsePositiveDecimal at h
  dsimp only at h
  split at h
  · cases h
  split at h
  · cases h
  split at h
  · cases h
  split at h
  · cases h
  split at h
  · cases h
  · rename_i hv
    cases h
    simp only [Bool.or_eq_true, Bool.not_eq_true', not_or, Bool.not_eq_false] at hv
    obtain ⟨q, rfl⟩ := F64.isFinite_iff.1 hv.1
    refine ⟨q, rfl, ?_⟩
    simpa using hv.2

/-- What a valid request is. -/
structure Valid (req : BidRequest) (amount rate : F64) : Prop where
  offerId : isBidObjectId req.offerId = true
  amount : parsePositiveDecimal req.amountFrom = .ok amount
  rate : parsePositiveDecimal req.rate = .ok rate
  address : ∀ a, req.addrTo = some a → validateAddress a = .ok ()
  validity : ∀ v, req.validForSeconds = some v → validateValidity v = .ok ()

theorem forM_ok {α : Type} {x : Option α} {f : α → Except String Unit} (h : x.forM f = .ok ()) :
    ∀ a, x = some a → f a = .ok () := by
  rintro a rfl
  exact h

theorem validate_ok {amount rate : F64} (h : validateBidRequest req = .ok (amount, rate)) : Valid req amount rate := by
  unfold validateBidRequest at h
  by_cases hid : isBidObjectId req.offerId = true
  · simp only [hid, Bool.not_true, Bool.false_eq_true, if_false] at h
    obtain ⟨a, ha, h⟩ := ok_of_bind h
    obtain ⟨r, hr, h⟩ := ok_of_bind h
    obtain ⟨_, haddr, h⟩ := ok_of_bind h
    obtain ⟨_, hvalid, h⟩ := ok_of_bind h
    cases h
    exact ⟨hid, ha, hr, forM_ok haddr, forM_ok hvalid⟩
  · simp only [Bool.not_eq_true] at hid
    simp only [hid, Bool.not_false, if_true] at h
    cases h

theorem fieldBool_eq_false {offer : Json} {key : String} (h : fieldBool offer key = false) :
    offer.get key ≠ some (.bool true) := by
  intro htrue
  simp [fieldBool, htrue, Json.asBool] at h

structure Untaken (offer : Json) (nowSecs : Nat) : Prop where
  unexpired : offer.get "is_expired" ≠ some (.bool true)
  unrevoked : offer.get "is_revoked" ≠ some (.bool true)
  notOwn : offer.get "is_own_offer" ≠ some (.bool true)
  inTime : ∀ t, (offer.get "expire_at").bind Json.asU64 = some t → nowSecs < t

theorem untaken_ok {offer : Json} {now : Nat} (h : checkUntaken offer now = .ok ()) : Untaken offer now := by
  unfold checkUntaken at h
  split at h
  · cases h
  rename_i hexpired
  split at h
  · cases h
  rename_i hrevoked
  split at h
  · cases h
  rename_i hown
  split at h
  · cases h
  rename_i htime
  refine ⟨fieldBool_eq_false (by simpa using hexpired), fieldBool_eq_false (by simpa using hrevoked),
    fieldBool_eq_false (by simpa using hown), fun t ht => ?_⟩
  rw [ht] at htime
  simpa using htime

theorem ofRat_ne_nan (x : ℚ) : F64.ofRat x ≠ .nan := by
  unfold F64.ofRat
  dsimp only
  split
  · exact fun h => by cases h
  split
  · exact fun h => by cases h
  · exact fun h => by cases h

/-- Two finite rates have a drift, which may be infinite. -/
theorem drift_ne_nan {a b : ℚ} (hb : 0 < b) : drift (.fin a) (.fin b) ≠ .nan := by
  have hsub : F64.sub (.fin a) (.fin b) = F64.ofRat (a + -b) := rfl
  unfold drift
  rw [hsub]
  cases hx : F64.ofRat (a + -b) with
  | nan => exact absurd hx (ofRat_ne_nan _)
  | inf negative => exact fun h => by cases h
  | fin q =>
    show F64.div (.fin |q|) (.fin b) ≠ .nan
    rw [F64.div, if_neg hb.ne']
    exact ofRat_ne_nan _

theorem le_of_not_lt {a b : F64} (ha : a ≠ .nan) (hb : b ≠ .nan) (h : b.lt a = false) : a.le b = true := by
  cases a with
  | nan => exact absurd rfl ha
  | inf neg =>
    cases b with
    | nan => exact absurd rfl hb
    | inf neg' => revert h; cases neg <;> cases neg' <;> decide
    | fin q =>
      cases neg with
      | true => rfl
      | false => cases h
  | fin p =>
    cases b with
    | nan => exact absurd rfl hb
    | inf neg' =>
      cases neg' with
      | true => cases h
      | false => rfl
    | fin q =>
      rw [F64.lt_fin, decide_eq_false_iff_not, not_lt] at h
      rw [F64.le_fin, decide_eq_true_iff]
      exact h

theorem rate_ok {rate : ℚ} {offer : Json} (h : checkRate env (.fin rate) offer = .ok ()) :
    ∃ r, fieldDecimal env offer "rate" = some (.fin r) ∧ 0 < r ∧ (drift (.fin rate) (.fin r)).le BID_RATE_TOLERANCE = true := by
  unfold checkRate at h
  cases hrate : fieldDecimal env offer "rate" with
  | none => simp only [hrate] at h; cases h
  | some offerRate =>
    simp only [hrate] at h
    split at h
    · cases h
    rename_i husable
    split at h
    · cases h
    rename_i hdrift
    simp only [Bool.not_eq_true', Bool.not_eq_false, Bool.and_eq_true] at husable
    obtain ⟨r, rfl⟩ := F64.isFinite_iff.1 husable.1
    have hpos : 0 < r := by simpa using husable.2
    exact ⟨r, rfl, hpos, le_of_not_lt (drift_ne_nan hpos) (ofRat_ne_nan _) (by simpa using hdrift)⟩

theorem amount_ok {amount : ℚ} {offer : Json} (h : checkAmount env (.fin amount) offer = .ok ()) :
    (∃ x, fieldDecimal env offer "amount_from" = some x ∧ ∀ q, x = .fin q → amount ≤ q) ∧
      ∀ q, fieldDecimal env offer "min_bid_amount" = some (.fin q) → 0 < q → q ≤ amount := by
  unfold checkAmount at h
  cases hsize : fieldDecimal env offer "amount_from" with
  | none => simp only [hsize] at h; cases h
  | some x =>
    simp only [hsize] at h
    split at h
    · cases h
    rename_i hle
    refine ⟨⟨x, rfl, fun q hq => ?_⟩, fun q hmin hq => ?_⟩
    · subst hq
      simpa using hle
    · simp only [hmin] at h
      split at h
      · cases h
      · rename_i hamount
        simpa [hq] using hamount

theorem verify_ok {amount rate : ℚ} {offer : Json} {now : Nat}
    (h : verifyAgainstOffer env (.fin amount) (.fin rate) offer now = .ok ())
    (hnamed : ∀ got, fieldStr offer "offer_id" = some got → eqIgnoreAsciiCase got req.offerId = true) :
    Fits env req offer now amount rate := by
  obtain ⟨_, huntaken, h⟩ := ok_of_bind h
  obtain ⟨_, hrate, h⟩ := ok_of_bind h
  have hu := untaken_ok huntaken
  obtain ⟨hsize, hmin⟩ := amount_ok h
  exact ⟨hnamed, hu.unexpired, hu.unrevoked, hu.notOwn, hu.inTime, rate_ok hrate, hsize, hmin⟩

theorem offer_named {reply offer : Json} {offerId : String} (h : offerFromReply reply offerId = .ok offer) :
    ∀ got, fieldStr offer "offer_id" = some got → eqIgnoreAsciiCase got offerId = true := by
  intro got hgot
  unfold offerFromReply at h
  dsimp only at h
  split at h
  · cases h
  split at h
  · cases h
  split at h
  · split at h
    · cases h
    · rename_i got' hgot' hsame
      cases h
      rw [hgot] at hgot'
      cases hgot'
      simpa using hsame
  · rename_i hnone
    cases h
    rw [hnone] at hgot
    cases hgot

theorem payout_ok {offer : Json} {a a' : String} {connection : Option String}
    (h : payoutDestination offer a connection = .ok a') :
    a' = trim a ∧ ∀ check ∈ PAYOUT_CHECKS, check (payoutCase offer a connection) = none := by
  unfold payoutDestination at h
  dsimp only at h
  split at h
  · cases h
  · rename_i hnone
    cases h
    exact ⟨rfl, by simpa [List.findSome?_eq_none_iff] using hnone⟩

theorem address_ok {a : String} (h : validateAddress a = .ok ()) : isEmpty (trim a) = false := by
  unfold validateAddress at h
  dsimp only at h
  split at h
  · cases h
  · rename_i hbad
    simp only [Bool.or_eq_true, not_or, Bool.not_eq_true] at hbad
    exact hbad.1.1

theorem reply_ok {r : HttpReply} {reply : Json} (h : readOfferReply env r = .ok reply) :
    ∃ status text, r = .answered status text ∧ isSuccess status = true ∧ env.fromStr text = .ok reply := by
  cases r with
  | unsent e => cases h
  | unread status e => cases h
  | answered status text =>
    unfold readOfferReply at h
    cases hs : isSuccess status with
    | false => simp [hs] at h
    | true =>
      cases hv : env.fromStr text with
      | error e => simp [hs, hv, mapError_error] at h
      | ok v =>
        simp [hs, hv, mapError_ok] at h
        subst h
        exact ⟨status, text, rfl, hs, hv⟩

theorem validity_ok {v : Nat} (h : validateValidity v = .ok ()) : 600 ≤ v ∧ v ≤ 86400 := by
  unfold validateValidity at h
  split at h
  · cases h
  · rename_i hv
    simpa using hv

/-! ## The body -/

theorem bodyOf (hvalid : ∀ a, req.addrTo = some a → validateAddress a = .ok ()) : BodyOf req (buildBidBody req) := by
  have hgiven : givenAddress req = req.addrTo.map trim := by
    unfold givenAddress
    cases haddr : req.addrTo with
    | none => rfl
    | some a => simp [address_ok (hvalid a haddr)]
  unfold buildBidBody
  rw [hgiven]
  obtain ⟨offerId, amountFrom, rate, addrTo, validForSeconds⟩ := req
  cases addrTo with
  | none =>
    cases validForSeconds with
    | none =>
      have hkeys : ["offer_id", "amount_from", "rate"].Sublist
          ["offer_id", "amount_from", "rate", "destination_address", "valid_for_seconds"] := by decide
      exact ⟨⟨_, rfl, hkeys⟩, rfl, rfl, rfl, rfl, rfl⟩
    | some v =>
      have hkeys : ["offer_id", "amount_from", "rate", "valid_for_seconds"].Sublist
          ["offer_id", "amount_from", "rate", "destination_address", "valid_for_seconds"] := by decide
      exact ⟨⟨_, rfl, hkeys⟩, rfl, rfl, rfl, rfl, rfl⟩
  | some a =>
    cases validForSeconds with
    | none =>
      have hkeys : ["offer_id", "amount_from", "rate", "destination_address"].Sublist
          ["offer_id", "amount_from", "rate", "destination_address", "valid_for_seconds"] := by decide
      exact ⟨⟨_, rfl, hkeys⟩, rfl, rfl, rfl, rfl, rfl⟩
    | some v => exact ⟨⟨_, rfl, List.Sublist.refl _⟩, rfl, rfl, rfl, rfl, rfl⟩

/-- The reviewed address makes the same body. -/
theorem body_reviewed {destination : Option String} (h : destination = givenAddress req) :
    buildBidBody { req with addrTo := destination } = buildBidBody req := by
  subst h
  unfold buildBidBody givenAddress
  dsimp only
  cases req.addrTo with
  | none => rfl
  | some a => by_cases hempty : isEmpty (trim a) = true <;> simp [Option.filter, hempty]

/-! ## A run -/

/-- One post, of a reviewed body. -/
def Must (env : Env) (req : BidRequest) (o : BidOp) (h : List (Ev BidOp.Ans)) : Prop :=
  ∀ body, o = .post body → posted h = [] ∧ Reviewed env req h body

@[simp] theorem posted_append (h h' : List (Ev BidOp.Ans)) : posted (h ++ h') = posted h ++ posted h' :=
  List.filterMap_append

/-- At the end, one body was posted, or none and the bid failed. -/
def Ended (r : Except String String) (h : List (Ev BidOp.Ans)) : Prop :=
  (∃ body, posted h = [body]) ∨ posted h = [] ∧ ∃ e, r = .error e

section
variable {h : List (Ev BidOp.Ans)}

theorem posts (hclean : posted h = []) (hreviewed : Reviewed env req h (buildBidBody req)) {destination : Option String}
    (hdest : destination = givenAddress req) :
    Safe (.hist (Must env req)) (postBid env { req with addrTo := destination }) Ended h := by
  unfold postBid
  rw [body_reviewed hdest]
  refine safe_call_hist.2 ⟨fun body hbody => ?_, fun r => ?_⟩
  · cases hbody
    exact ⟨hclean, hreviewed⟩
  · have hone : posted (h ++ [⟨.post (buildBidBody req), r⟩]) = [buildBidBody req] := by
      rw [posted_append, hclean]
      rfl
    cases r with
    | unsent e => exact Safe.ofExcept (.inl ⟨_, hone⟩)
    | unread status e =>
      refine safe_call_hist.2 ⟨fun _ hbody => (by cases hbody), fun _ => Safe.ofExcept (.inl ⟨buildBidBody req, ?_⟩)⟩
      rw [posted_append, hone]
      rfl
    | answered status text =>
      refine safe_call_hist.2 ⟨fun _ hbody => (by cases hbody), fun _ => Safe.ofExcept (.inl ⟨buildBidBody req, ?_⟩)⟩
      rw [posted_append, hone]
      rfl

theorem reads (offer : Json) : Safe (.hist (Must env req)) (readConnection offer)
    (fun r h' => posted h' = posted h ∧ (∀ e ∈ h, e ∈ h') ∧ ∃ connection, r = .ok connection ∧ Connected h' offer connection)
    h := by
  unfold readConnection Connected
  cases (receiveTicker offer).filter payoutNeedsConnection with
  | none => exact safe_ret.2 ⟨rfl, fun _ he => he, none, rfl, rfl⟩
  | some ticker =>
    refine safe_call_hist.2 ⟨fun _ hbody => (by cases hbody), fun reply => safe_ret.2 ?_⟩
    refine ⟨by simp [posted], fun e he => List.mem_append_left _ he, _, rfl, reply, by simp, rfl⟩

/-- A destination is the given address, and passed every check. -/
theorem destined (offer : Json) : Safe (.hist (Must env req)) (reviewDestination offer req)
    (fun r h' => posted h' = posted h ∧ (∀ e ∈ h, e ∈ h') ∧ ∀ destination, r = .ok destination →
      destination = givenAddress req ∧ ∀ a, givenAddress req = some a → ∃ connection, Connected h' offer connection ∧
        ∀ check ∈ PAYOUT_CHECKS, check (payoutCase offer a connection) = none) h := by
  unfold reviewDestination
  cases hgiven : givenAddress req with
  | none => exact safe_ret.2 ⟨rfl, fun _ he => he, fun _ hr => by cases hr; exact ⟨rfl, fun _ ha => (by cases ha)⟩⟩
  | some a =>
    refine Safe.bind ((reads offer).mono ?_)
    rintro _ h' ⟨hposted, hmono, connection, rfl, hconnected⟩
    refine Safe.ofExcept ⟨hposted, hmono, fun destination hr => ?_⟩
    cases hpay : payoutDestination offer a connection with
    | error e =>
      rw [hpay] at hr
      cases hr
    | ok a' =>
      rw [hpay] at hr
      cases hr
      obtain ⟨rfl, hchecks⟩ := payout_ok hpay
      have htrim : trim a = a := by
        obtain ⟨hb, _⟩ := Option.filter_eq_some_iff.1 hgiven
        obtain ⟨b, _, rfl⟩ := Option.map_eq_some_iff.1 hb
        exact trim_trim b
      refine ⟨by rw [htrim], fun a' ha' => ?_⟩
      cases ha'
      exact ⟨connection, hconnected, hchecks⟩

end

theorem places (req : BidRequest) : Safe (.hist (Must env req)) (swapSidecarPlaceBid env req) Ended [] := by
  have hno : ∀ {o : BidOp} {h : List (Ev BidOp.Ans)}, (∀ body, o ≠ .post body) → Must env req o h :=
    fun hne body hbody => absurd hbody (hne body)
  unfold swapSidecarPlaceBid
  simp only [Prog.bind_eq]
  refine Safe.ofExcept_bind (fun e _ => .inr ⟨rfl, e, rfl⟩) fun values hvalues => ?_
  obtain ⟨amount, rate⟩ := values
  have hvalid := validate_ok hvalues
  obtain ⟨amount, rfl, hamount⟩ := parse_ok hvalid.amount
  obtain ⟨rate, rfl, hrate⟩ := parse_ok hvalid.rate
  refine Safe.bind (safe_request_hist (hno fun _ h => (by cases h)) fun r => ?_)
  cases r with
  | error e => exact .inr ⟨rfl, e, rfl⟩
  | ok _ =>
    refine Safe.bind (safe_request_hist (hno fun _ h => (by cases h)) fun r => ?_)
    cases hread : readOfferReply env r with
    | error e => exact .inr ⟨rfl, e, rfl⟩
    | ok reply =>
      obtain ⟨status, text, rfl, hstatus, htext⟩ := reply_ok hread
      refine Safe.ofExcept_bind (fun e _ => .inr ⟨rfl, e, rfl⟩) fun offer hoffer => ?_
      refine Safe.bind (safe_request_hist (hno fun _ h => (by cases h)) fun now => ?_)
      refine Safe.ofExcept_bind (fun e _ => .inr ⟨rfl, e, rfl⟩) fun _ hverify => ?_
      have hfits : Fits env req offer now amount rate := verify_ok hverify (offer_named hoffer)
      refine Safe.bind ((destined offer).mono ?_)
      rintro r h' ⟨hposted, hmono, hdest⟩
      have hclean : posted h' = [] := hposted.trans rfl
      cases r with
      | error e => exact .inr ⟨hclean, e, rfl⟩
      | ok destination =>
        obtain ⟨hgiven, hchecks⟩ := hdest destination rfl
        refine posts hclean ⟨hvalid.offerId, fun v hv => validity_ok (hvalid.validity v hv), ?_, bodyOf hvalid.address⟩ hgiven
        refine ⟨amount, rate, status, text, reply, offer, now, hvalid.amount, hamount, hvalid.rate, hrate,
          hmono _ (by simp [Monitor.hist]), hstatus, htext, hoffer, hmono _ (by simp [Monitor.hist]), hfits, fun a ha => ?_⟩
        have htrim : givenAddress req = some (trim a) := by
          simp [givenAddress, ha, Option.filter, address_ok (hvalid.address a ha)]
        obtain ⟨connection, hconnected, hpass⟩ := hchecks (trim a) htrim
        refine ⟨connection, hconnected, fun check hcheck => ?_⟩
        have hsame : payoutCase offer (trim a) connection = payoutCase offer a connection := by
          simp [payoutCase]
        rw [← hsame]
        exact hpass check hcheck

/-! ## Every run -/

theorem posted_mem {h : List (Ev BidOp.Ans)} {body : Json} (hb : body ∈ posted h) :
    ∃ pre post r, h = pre ++ ⟨.post body, r⟩ :: post := by
  obtain ⟨⟨o, r⟩, he, hev⟩ := List.mem_filterMap.1 hb
  cases o with
  | post b =>
    cases hev
    obtain ⟨pre, post, hsplit⟩ := List.append_of_mem he
    exact ⟨pre, post, r, hsplit⟩
  | context => cases hev
  | getOffer offerId => cases hev
  | nowSecs => cases hev
  | wallets => cases hev
  | countBid => cases hev

/-- Where every post is the first, there is one at most. -/
theorem posted_le_one {h : List (Ev BidOp.Ans)}
    (hfirst : ∀ pre body r post, h = pre ++ ⟨.post body, r⟩ :: post → posted pre = []) : (posted h).length ≤ 1 := by
  rcases List.eq_nil_or_concat (posted h) with hnil | ⟨bodies, body, hsplit⟩
  · rw [hnil]
    exact Nat.zero_le 1
  · rw [List.concat_eq_append] at hsplit
    obtain ⟨front, back, hh, hfront, hback⟩ := List.filterMap_eq_append_iff.1 hsplit
    have hlast : body ∈ posted back := by
      unfold posted
      rw [hback]
      exact List.mem_singleton_self body
    obtain ⟨pre, post, r, hpre⟩ := posted_mem hlast
    have hclean : posted (front ++ pre) = [] := hfirst (front ++ pre) body r post (by rw [hh, hpre, List.append_assoc])
    have hnone : bodies = [] := by
      rw [posted_append] at hclean
      rw [← hfront]
      exact (List.append_eq_nil_iff.1 hclean).1
    rw [hsplit, hnone]
    exact Nat.le_refl 1

theorem Reviewed.mono {h h' : List (Ev BidOp.Ans)} {body : Json} (hr : Reviewed env req h body)
    (hmono : ∀ e ∈ h, e ∈ h') : Reviewed env req h' body where
  offerId := hr.offerId
  validity := hr.validity
  offer := by
    obtain ⟨amount, rate, status, text, reply, offer, now, ha, hapos, hr, hrpos, hget, hstatus, htext, hoffer, hnow,
      hfits, hpay⟩ := hr.offer
    refine ⟨amount, rate, status, text, reply, offer, now, ha, hapos, hr, hrpos, hmono _ hget, hstatus, htext, hoffer,
      hmono _ hnow, hfits, fun a haddr => ?_⟩
    obtain ⟨connection, hconnected, hchecks⟩ := hpay a haddr
    refine ⟨connection, ?_, hchecks⟩
    unfold Connected at hconnected ⊢
    split at hconnected
    · obtain ⟨reply, hreply, hconn⟩ := hconnected
      exact ⟨reply, hmono _ hreply, hconn⟩
    · exact hconnected
  body := hr.body

/-- One POST at most, of a body that the door built for an offer that the engine lets through; a bid that is not
posted fails. -/
theorem bid_door {tr : List (Ev BidOp.Ans)} {q : BidProg String} (hr : (swapSidecarPlaceBid env req).Run tr q) :
    (posted tr).length ≤ 1 ∧ (∀ body ∈ posted tr, Reviewed env req tr body) ∧
      ∀ r, q = .ofExcept r → posted tr = [] → ∃ e, r = .error e := by
  refine ⟨posted_le_one fun pre body r post htr => ?_, fun body hbody => ?_, fun r hq hnone => ?_⟩
  · exact (must_of_mem (places req) hr htr body rfl).1
  · obtain ⟨pre, post, r, rfl⟩ := posted_mem hbody
    exact (must_of_mem (places req) hr rfl body rfl).2.mono fun e he => List.mem_append_left _ he
  · subst hq
    have hsafe := safe_of_run (places req) hr
    rw [List.nil_append] at hsafe
    have hended : Ended r tr := by
      cases r with
      | ok id => exact safe_ret.1 hsafe
      | error e => exact safe_fail.1 hsafe
    rcases hended with ⟨body, hbody⟩ | ⟨_, herror⟩
    · rw [hbody] at hnone
      cases hnone
    · exact herror

/-! ## Two bids -/

def sampleRequest : BidRequest :=
  { offerId := "ab", amountFrom := "0.5", rate := "1.4", addrTo := none, validForSeconds := some 3600 }

def sampleOffer : Json :=
  .arr [.obj [("offer_id", .str "AB"), ("rate", .str "1.4"), ("amount_from", .str "2.5"), ("min_bid_amount", .str "0.05"),
    ("is_expired", .bool false), ("is_revoked", .bool false), ("is_own_offer", .bool false), ("expire_at", .int 2000)]]

/-- An offer of which only the rate and the size are known. -/
def bareOffer : Json := .obj [("rate", .str "1.4"), ("amount_from", .str "2.5")]

/-- The node's answers are one JSON value. -/
def envOf (v : Json) : Env where
  fromStr _ := .ok v
  display _ := "null"
  asF64 _ := .fin 0
  showF64 _ := "0"

def nodeAnswers : (o : BidOp) → o.Ans
  | .context => .ok ()
  | .getOffer _ => .answered 200 "offer"
  | .nowSecs => (1000 : Nat)
  | .wallets => .error "no answer"
  | .post _ => .answered 200 "bid"
  | .countBid => ()

def sampleRun (v : Json) : List (Ev BidOp.Ans) :=
  Prog.fed (fun _ o => nodeAnswers o) (swapSidecarPlaceBid (envOf v) sampleRequest) 4

theorem bid_door_sample : (posted (sampleRun sampleOffer)).length ≤ 1 ∧
    (∀ body ∈ posted (sampleRun sampleOffer), Reviewed (envOf sampleOffer) sampleRequest (sampleRun sampleOffer) body) ∧
    ∀ r, Prog.feed (fun _ o => nodeAnswers o) (swapSidecarPlaceBid (envOf sampleOffer) sampleRequest) 4 = .ofExcept r →
      posted (sampleRun sampleOffer) = [] → ∃ e, r = .error e :=
  bid_door (Prog.run_feed _ _ 4)

theorem bare_posted : (posted (sampleRun bareOffer)).length = 1 := by decide +kernel

/-- An offer that does not name itself, and says nothing of its expiry or owner, is bid on. -/
theorem not_always_said : ¬ ∀ (env : Env) (req : BidRequest) (tr : List (Ev BidOp.Ans)) (q : BidProg String),
    (swapSidecarPlaceBid env req).Run tr q → ∀ body ∈ posted tr, ∃ amount status text reply offer now,
      parsePositiveDecimal req.amountFrom = .ok (.fin amount) ∧
      ⟨.getOffer req.offerId, .answered status text⟩ ∈ tr ∧ env.fromStr text = .ok reply ∧
      offerFromReply reply req.offerId = .ok offer ∧ ⟨.nowSecs, now⟩ ∈ tr ∧ Said env req offer now amount := by
  intro h
  obtain ⟨body, hbody⟩ := List.length_eq_one_iff.1 bare_posted
  have hmem : body ∈ posted (sampleRun bareOffer) := by
    rw [hbody]
    exact List.mem_singleton_self body
  obtain ⟨amount, status, text, reply, offer, now, _, _, htext, hoffer, _, hsaid⟩ :=
    h _ _ _ _ (Prog.run_feed (fun _ o => nodeAnswers o) (swapSidecarPlaceBid (envOf bareOffer) sampleRequest) 4) body hmem
  cases htext
  obtain ⟨got, hgot, _⟩ := hsaid.named
  obtain rfl : offer = bareOffer := by
    have hbare : offerFromReply bareOffer "ab" = .ok bareOffer := rfl
    exact Except.ok.inj (hoffer.symm.trans hbare)
  cases hgot

end BidDoor
