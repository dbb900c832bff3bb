import PwndaWallet.Lib.Double
import PwndaWallet.Lib.Json
import PwndaWallet.Lib.Prog

/-!
# The bid door

`swap_sidecar_place_bid` (`swap_bid.rs`): the checks of a bid against the engine's own copy of the offer, the payout
address, the body and the one POST to `bids/new`.
-/

namespace BidDoor

open Rust Tasks

/-- What other code computes. -/
structure Env where
  fromStr : String → Except String Json
  /-- `{}` of a JSON value -/
  display : Json → String
  /-- the double of a JSON number with a fraction or an exponent -/
  asF64 : String → F64
  /-- `{}` of a double -/
  showF64 : F64 → String

variable (env : Env)

/-! ## The request -/

def BID_RATE_TOLERANCE : F64 := .ofRat (1 / 10000)

def MAX_ID_LEN : Nat := 128

def MAX_AMOUNT_LEN : Nat := 64

structure BidRequest where
  offerId : String
  amountFrom : String
  rate : String
  addrTo : Option String
  validForSeconds : Option Nat

def isAsciiHexdigit (c : Char) : Bool := c.isDigit || ('a' ≤ c && c ≤ 'f') || ('A' ≤ c && c ≤ 'F')

def isBidObjectId (s : String) : Bool := !isEmpty s && s.utf8ByteSize ≤ MAX_ID_LEN && s.toList.all isAsciiHexdigit

def parsePositiveDecimal (s : String) : Except String F64 :=
  let t := trim s
  if isEmpty t || t.utf8ByteSize > MAX_AMOUNT_LEN then .error s!"{debugStr s} is not a usable amount"
  else if !t.toList.all (fun c => c.isDigit || c == '.') then
    .error s!"{debugStr s} is not a plain decimal amount (no signs, no exponents)"
  else if t.toList.count '.' > 1 then .error s!"{debugStr s} has more than one decimal point"
  else
    match F64.parse t with
    | none => .error s!"{debugStr s} is not a number"
    | some v =>
      if !v.isFinite || v.le (.fin 0) then .error s!"{debugStr s} must be greater than zero" else .ok v

def validateAddress (addr : String) : Except String Unit :=
  let a := trim addr
  if isEmpty a || a.utf8ByteSize > 128 || a.toList.any isWhitespace then
    .error s!"{debugStr addr} is not a usable payout address"
  else .ok ()

def validateValidity (v : Nat) : Except String Unit :=
  if !(600 ≤ v && v ≤ 86400) then
    .error s!"a bid's validity must be between 600 and 86400 seconds, got {v}"
  else .ok ()

def validateBidRequest (req : BidRequest) : Except String (F64 × F64) := do
  if !isBidObjectId req.offerId then throw s!"{debugStr req.offerId} is not a valid offer id - expected hex"
  let amount ← parsePositiveDecimal req.amountFrom
  let rate ← parsePositiveDecimal req.rate
  req.addrTo.forM validateAddress
  req.validForSeconds.forM validateValidity
  return (amount, rate)

/-! ## The offer -/

def fieldStr (offer : Json) (key : String) : Option String := (offer.get key).bind Json.asStr

def fieldDecimal (offer : Json) (key : String) : Option F64 :=
  match offer.get key with
  | some (.str s) => F64.parse (trim s)
  | some (.int n) => some (.ofRat n)
  | some (.float text) => some (env.asF64 text)
  | _ => none

def fieldBool (offer : Json) (key : String) : Bool := ((offer.get key).bind Json.asBool).getD false

def offerFromReply (reply : Json) (offerId : String) : Except String Json :=
  match fieldStr reply "error" with
  | some e => .error s!"the swap node refused the offer lookup: {e}"
  | none =>
    let candidate := match reply with
      | .arr items => items.head?
      | .obj fields => some (.obj fields)
      | _ => none
    match candidate with
    | none =>
      .error s!"the swap node returned no offer for {offerId} - it may have just expired or been withdrawn"
    | some offer =>
      match fieldStr offer "offer_id" with
      | some got =>
        if !eqIgnoreAsciiCase got offerId then
          .error s!"the swap node answered with offer {got} when asked for {offerId}"
        else .ok offer
      | none => .ok offer

def checkUntaken (offer : Json) (nowSecs : Nat) : Except String Unit :=
  if fieldBool offer "is_expired" then
    .error "that offer has expired - re-quote to price against the current book"
  else if fieldBool offer "is_revoked" then .error "that offer was withdrawn by the other user - re-quote"
  else if fieldBool offer "is_own_offer" then .error "that is this node's own offer and cannot be bid on"
  else if ((offer.get "expire_at").bind Json.asU64).any (· ≤ nowSecs) then
    .error "that offer expired while it was on screen - re-quote to price against the current book"
  else .ok ()

def drift (rate offerRate : F64) : F64 := ((rate.sub offerRate).abs).div offerRate

def checkRate (rate : F64) (offer : Json) : Except String Unit :=
  match fieldDecimal env offer "rate" with
  | none => .error "the swap node's copy of that offer has no readable rate, so the bid is refused"
  | some offerRate =>
    if !(offerRate.isFinite && F64.lt (.fin 0) offerRate) then
      .error "the swap node's copy of that offer has an unusable rate"
    else if BID_RATE_TOLERANCE.lt (drift rate offerRate) then
      .error (s!"the bid's rate ({env.showF64 rate}) no longer matches the offer's ({env.showF64 offerRate}) - the " ++
        "offer was re-priced or the request was altered. Nothing was sent; re-quote and review again.")
    else .ok ()

def checkAmount (amount : F64) (offer : Json) : Except String Unit :=
  match fieldDecimal env offer "amount_from" with
  | none => .error "the swap node's copy of that offer has no readable size, so the bid is refused"
  | some maxReceive =>
    if maxReceive.lt amount then
      .error s!"that offer only has {env.showF64 maxReceive} available and the bid asks for {env.showF64 amount}"
    else
      match fieldDecimal env offer "min_bid_amount" with
      | some minReceive =>
        if F64.lt (.fin 0) minReceive && amount.lt minReceive then
          .error (s!"that offer will not fill less than {env.showF64 minReceive} and the bid asks for " ++
            s!"{env.showF64 amount}")
        else .ok ()
      | none => .ok ()

def verifyAgainstOffer (amount rate : F64) (offer : Json) (nowSecs : Nat) : Except String Unit := do
  checkUntaken offer nowSecs
  checkRate env rate offer
  checkAmount env amount offer

/-! ## The payout address -/

def SWAP_TYPE_XMR : Nat := 5

abbrev Shape := List (Char → Bool)

def exactly (s : String) : Shape := s.toList.map fun c => (· == c)

def oneOf (s : String) : Char → Bool := (s.toList.contains ·)

/-- `[qpzry9x8gf2tvdw0s3jn54khce6mua7l]` -/
def bech32 : Char → Bool := oneOf "qpzry9x8gf2tvdw0s3jn54khce6mua7l"

/-- `[1-9A-HJ-NP-Za-km-z]` -/
def base58 (c : Char) : Bool :=
  ('1' ≤ c && c ≤ '9') || ('A' ≤ c && c ≤ 'H') || ('J' ≤ c && c ≤ 'N') || ('P' ≤ c && c ≤ 'Z') ||
    ('a' ≤ c && c ≤ 'k') || ('m' ≤ c && c ≤ 'z')

/-- The pattern between `^` and `$` matches the text. -/
def Shape.isMatch (shape : Shape) (text : String) : Bool :=
  shape.length == text.toList.length && (shape.zip text.toList).all fun (p, c) => p c

/-- The alternatives of each coin's pattern. -/
def PAYOUT_ADDRESS_SHAPES : List (String × List Shape) :=
  [("BTC", [exactly "bc1q" ++ List.replicate 38 bech32]),
   ("LTC", [exactly "ltc1q" ++ List.replicate 38 bech32]),
   ("BCH", [exactly "bitcoincash:q" ++ List.replicate 41 bech32]),
   ("DOGE", [exactly "D" ++ List.replicate 33 base58]),
   ("DASH", [exactly "X" ++ List.replicate 33 base58]),
   ("XMR", [oneOf "48" :: List.replicate 94 base58]),
   ("ZEPH", [exactly "ZEPHYR" ++ List.replicate 95 base58, exactly "ZEPHs" ++ List.replicate 94 base58]),
   ("ZANO", [exactly "Zx" ++ List.replicate 95 base58])]

def tickerForCoinName (name : String) : Option String :=
  match toAsciiUppercase (String.ofList (name.toList.filter Char.isAlphanum)) with
  | "BITCOIN" | "BTC" => some "BTC"
  | "LITECOIN" | "LTC" => some "LTC"
  | "BITCOINCASH" | "BCH" => some "BCH"
  | "DOGECOIN" | "DOGE" => some "DOGE"
  | "DASH" => some "DASH"
  | "MONERO" | "XMR" => some "XMR"
  | "ZEPHYR" | "ZEPH" => some "ZEPH"
  | "ZANO" => some "ZANO"
  | _ => none

def receiveTicker (offer : Json) : Option String := (fieldStr offer "coin_from").bind tickerForCoinName

def sendTicker (offer : Json) : Option String := (fieldStr offer "coin_to").bind tickerForCoinName

def PAYOUT_CONNECTION_REQUIRED : List (String × String) :=
  [("BTC", "electrum"), ("LTC", "electrum"), ("BCH", "electrum"), ("DOGE", "electrum"), ("DASH", "electrum"),
   ("XMR", "any"), ("ZEPH", "any"), ("ZANO", "any")]

def connectionRequired (ticker : String) : Option String := PAYOUT_CONNECTION_REQUIRED.lookup ticker

def payoutNeedsConnection (ticker : String) : Bool := connectionRequired ticker != some "any"

def reportedConnection (wallets : Json) (ticker : String) : Option String :=
  ((((wallets.get ticker).bind (·.get "connection_type")).bind Json.asStr).map trim).filter (!isEmpty ·)

def PAYOUT_SCRIPTLESS_TICKERS : List String := ["XMR", "ZEPH", "ZANO"]

def PAYOUT_FEE_COINS : List String := ["LTC", "BCH", "BTC"]

def feeBearingPurchase (sold bought : String) : Bool :=
  let s := toAsciiUppercase (trim sold)
  let b := toAsciiUppercase (trim bought)
  PAYOUT_SCRIPTLESS_TICKERS.contains s && !PAYOUT_SCRIPTLESS_TICKERS.contains b && PAYOUT_FEE_COINS.contains b

structure PayoutCase where
  offer : Json
  ticker : Option String
  sold : Option String
  address : String
  connection : Option String

def checkProtocol (c : PayoutCase) : Option String :=
  if (c.offer.get "swap_type").bind Json.asU64 = some SWAP_TYPE_XMR then none
  else some ("this offer's swap protocol pays the swap node's own wallet whatever address is given, so the wallet " ++
    "should not have sent one. Nothing was sent.")

def checkCoin (c : PayoutCase) : Option String :=
  match c.ticker with
  | some _ => none
  | none =>
    let coin := (fieldStr c.offer "coin_from").getD "this coin"
    some (s!"the wallet has no payout rule for {coin}, so it should not have sent an address. Nothing was sent.")

def checkFee (c : PayoutCase) : Option String :=
  match c.ticker with
  | none => checkCoin c
  | some bought =>
    if !feeBearingPurchase (c.sold.getD "") bought then none
    else some (s!"the licence fee on this swap is taken from the swap node's {bought} wallet once it completes, so " ++
      s!"the {bought} bought stays in that wallet and the wallet should not have sent an address. Nothing was sent.")

def checkForm (c : PayoutCase) : Option String :=
  match c.ticker with
  | none => checkCoin c
  | some ticker =>
    match PAYOUT_ADDRESS_SHAPES.lookup ticker with
    | none => some s!"no payout address form is recorded for {ticker}. Nothing was sent."
    | some shapes =>
      if shapes.any (·.isMatch c.address) then none
      else some (s!"{debugStr c.address} is not a {ticker} address form the swap engine pays as written, so the bid " ++
        "is refused rather than paid somewhere else. Nothing was sent.")

def checkConnection (c : PayoutCase) : Option String :=
  match c.ticker with
  | none => checkCoin c
  | some ticker =>
    match connectionRequired ticker with
    | some "any" => none
    | some "electrum" =>
      match c.connection with
      | some "electrum" => none
      | some other => some (s!"the swap node follows {ticker} through a full node ({debugStr other}), which can " ++
          "confirm a payment only to its own wallet, so the wallet should not have sent an outside address. Nothing " ++
          "was sent.")
      | none => some (s!"the swap node did not say how it reaches {ticker}, so a payment to an outside address could " ++
          "not be followed and the wallet should not have sent one. Nothing was sent.")
    | _ => some s!"no payout connection rule is recorded for {ticker}. Nothing was sent."

def PAYOUT_CHECKS : List (PayoutCase → Option String) :=
  [checkProtocol, checkCoin, checkFee, checkForm, checkConnection]

def payoutCase (offer : Json) (addr : String) (connection : Option String) : PayoutCase :=
  { offer, ticker := receiveTicker offer, sold := sendTicker offer, address := trim addr, connection }

def payoutDestination (offer : Json) (addr : String) (connection : Option String) : Except String String :=
  let c := payoutCase offer addr connection
  match PAYOUT_CHECKS.findSome? (· c) with
  | some refusal => .error refusal
  | none => .ok c.address

/-! ## The bid -/

def DESTINATION_FIELD : String := "destination_address"

/-- The address, if one was given. -/
def givenAddress (req : BidRequest) : Option String := (req.addrTo.map trim).filter (!isEmpty ·)

def buildBidBody (req : BidRequest) : Json :=
  .obj ([("offer_id", .str req.offerId), ("amount_from", .str (trim req.amountFrom)), ("rate", .str (trim req.rate))] ++
    ((givenAddress req).map fun addr => (DESTINATION_FIELD, Json.str addr)).toList ++
    (req.validForSeconds.map fun v => ("valid_for_seconds", Json.str (toString v))).toList)

def extractBidId (v : Json) : Except String String :=
  match v.get "error" with
  | some e => .error s!"the swap node refused the bid: {env.display e}"
  | none =>
    let id := match v with
      | .str s => some (trim s)
      | _ => (["bid_id", "bidId", "id"].findSome? (fieldStr v)).map trim
    match id.filter (!isEmpty ·) with
    | some id => .ok id
    | none => .error ("the swap node accepted the bid but returned no bid id, so the wallet cannot track it - check " ++
        "the advanced console before retrying, so the same bid is not placed twice")

/-- An HTTP request gets no answer, an answer that cannot be read, or an answer. -/
inductive HttpReply where
  | unsent (e : String)
  | unread (status : Nat) (e : String)
  | answered (status : Nat) (text : String)

inductive BidOp where
  /-- the port and the credential of a healthy node, and a client -/
  | context
  /-- `GET /json/offers/<id>` -/
  | getOffer (offerId : String)
  | nowSecs
  /-- `GET /json/wallets` -/
  | wallets
  /-- `POST /json/bids/new` -/
  | post (body : Json)
  /-- `BIDS_SENT` goes up -/
  | countBid

def BidOp.Ans : BidOp → Type
  | .context => Except String Unit
  | .getOffer _ => HttpReply
  | .nowSecs => Nat
  | .wallets => Except String Json
  | .post _ => HttpReply
  | .countBid => Unit

abbrev BidProg (α : Type) := Prog BidOp BidOp.Ans String α

def isSuccess (status : Nat) : Bool := 200 ≤ status && status < 300

def readOfferReply : HttpReply → Except String Json
  | .unsent e => .error s!"could not re-read the offer from the swap node: {e}"
  | .unread _ e => .error s!"could not read the swap node's reply: {e}"
  | .answered status text =>
    if !isSuccess status then .error s!"swap node HTTP {status} on the offer lookup"
    else (env.fromStr text).mapError fun e => s!"the swap node's offer reply was not JSON: {e}"

def clip (text : String) : String := String.ofList (text.toList.take 200)

def readBidReply : HttpReply → Except String String
  | .unsent e => .error s!"the bid could not be sent to the swap node: {e}"
  | .unread _ e => .error s!"could not read the swap node's reply: {e}"
  | .answered status text =>
    if !isSuccess status then .error s!"the swap node refused the bid (HTTP {status}): {clip text}"
    else
      match env.fromStr text with
      | .error e => .error s!"the swap node's reply was not JSON: {e} - {clip text}"
      | .ok parsed => extractBidId env parsed

/-- How the node reaches the chain of the coin bought, where the rule depends on it. -/
def readConnection (offer : Json) : BidProg (Option String) :=
  match (receiveTicker offer).filter payoutNeedsConnection with
  | some ticker => .call .wallets fun reply =>
      .ret (reply.toOption.bind (reportedConnection · ticker))
  | none => .ret none

def reviewDestination (offer : Json) (req : BidRequest) : BidProg (Option String) :=
  match givenAddress req with
  | some a => (readConnection offer).bind fun connection =>
      .ofExcept ((payoutDestination offer a connection).map some)
  | none => .ret none

def postBid (req : BidRequest) : BidProg String :=
  .call (.post (buildBidBody req)) fun
    | .unsent e => .ofExcept (readBidReply env (.unsent e))
    | reply => .call .countBid fun _ => .ofExcept (readBidReply env reply)

def swapSidecarPlaceBid (req : BidRequest) : BidProg String := do
  let (amount, rate) ← .ofExcept (validateBidRequest req)
  .request .context id
  let reply ← .request (.getOffer req.offerId) (readOfferReply env)
  let offer ← .ofExcept (offerFromReply reply req.offerId)
  let now : Nat ← .request .nowSecs .ok
  .ofExcept (verifyAgainstOffer env amount rate offer now)
  let destination ← reviewDestination offer req
  postBid env { req with addrTo := destination }

end BidDoor
