import PwndaWallet.Desk.Arm
import Mathlib.Tactic.SplitIfs
import PwndaWallet.Lib.Result

/-!
# The wallet's URL is on this machine

The check on the URL of the wallet splits it by hand. It looks where RFC 3986 does if the first `://`
follows the scheme and no `@` comes after a `?` or `#`; then only brackets around something else than an
IPv6 address, or that do not end the host, are accepted wrongly. The URL of the watching wallet is not
checked at all.
-/

namespace Desk

open Rust

/-! ## Where the check looks -/

/-- The end of the authority in RFC 3986, where the check does not see it. -/
def isQuery (c : Char) : Bool := c = '?' || c = '#'

/-- The check finds the authority of the URL, up to a query without `@`. -/
structure Located (url : List Char) : Prop where
  scheme : ∃ scheme rest, url = scheme ++ ':' :: '/' :: '/' :: rest ∧ scheme ≠ [] ∧
    ∀ c ∈ scheme, Uri.isSchemeChar c = true
  query : '@' ∉ (((afterSeparator url).getD url).takeWhile (· ≠ '/')).dropWhile fun c => !isQuery c

/-- Brackets hold an IPv6 address, are closed, and a port or a query follows them, or nothing. -/
def bracketsHold : List Char → Bool
  | '[' :: rest =>
    (Net.parseIp (rest.takeWhile (· ≠ ']'))).any Net.IpAddr.isV6 &&
      match rest.dropWhile (· ≠ ']') with
      | [_] => true
      | _ :: c :: _ => c = ':' || isQuery c
      | [] => false
  | _ => true

theorem afterSeparator_append {scheme rest : List Char} (hs : ∀ c ∈ scheme, Uri.isSchemeChar c = true) :
    afterSeparator (scheme ++ ':' :: '/' :: '/' :: rest) = some rest := by
  induction scheme with
  | nil => rfl
  | cons c scheme ih =>
    have hc := hs c (List.mem_cons_self ..)
    have hne : c ≠ ':' := by
      rintro rfl
      exact absurd hc (by decide)
    rw [List.cons_append]
    unfold afterSeparator
    split
    · rename_i heq
      exact absurd (List.cons.inj heq).1 hne
    · rename_i cs heq
      obtain ⟨_, rfl⟩ := List.cons.inj heq
      exact ih fun c hc => hs c (List.mem_cons_of_mem _ hc)
    · rename_i heq
      cases heq

theorem takeWhile_isPlain (l : List Char) :
    l.takeWhile Uri.isPlain = (l.takeWhile (· ≠ '/')).takeWhile fun c => !isQuery c := by
  rw [List.takeWhile_takeWhile]
  congr 1
  funext c
  simp [Uri.isPlain, isQuery, Bool.and_left_comm, Bool.and_comm]

/-- The characters of a host that the check accepts. -/
theorem not_isQuery_of_accepted {host : List Char}
    (ha : host = "localhost".toList ∨ ∃ ip, Net.parseIp host = some ip) : ∀ c ∈ host, isQuery c = false := by
  intro c hc
  rcases ha with rfl | ⟨ip, hip⟩
  · have hall : ("localhost".toList.all fun c => !isQuery c) = true := by decide
    simpa using List.all_eq_true.1 hall c hc
  · have hchar := Net.isIpChar_of_parseIp hip c hc
    cases hq : isQuery c with
    | false => rfl
    | true =>
      unfold isQuery at hq
      rcases (Bool.or_eq_true _ _).mp hq with h | h
      · obtain rfl := of_decide_eq_true h
        exact absurd hchar (by decide)
      · obtain rfl := of_decide_eq_true h
        exact absurd hchar (by decide)

/-- What the check accepts. -/
def Accepted (host : List Char) : Prop :=
  host = "localhost".toList ∨ ∃ ip, Net.parseIp host = some ip ∧ ip.isLoopback = true

theorem urlHostIsLoopback_iff {url : String} :
    urlHostIsLoopback url = true ↔ Accepted (authorityHost (urlAuthority url.toList)) := by
  unfold urlHostIsLoopback Accepted
  dsimp only
  by_cases hl : authorityHost (urlAuthority url.toList) = "localhost".toList
  · simp [hl]
  · rw [if_neg hl]
    cases Net.parseIp (authorityHost (urlAuthority url.toList)) with
    | none => exact ⟨nofun, fun h => h.elim (absurd · hl) fun ⟨_, h, _⟩ => nomatch h⟩
    | some ip => exact ⟨fun h => .inr ⟨ip, rfl, h⟩, fun h => h.elim (absurd · hl) fun ⟨_, h, hip⟩ =>
        Option.some.inj h ▸ hip⟩

theorem Accepted.not_isQuery {host : List Char} (ha : Accepted host) : ∀ c ∈ host, isQuery c = false :=
  not_isQuery_of_accepted (ha.imp id fun ⟨ip, hip, _⟩ => ⟨ip, hip⟩)

/-- The part of the authority that the check takes and RFC 3986 does not. -/
def Beyond (extra : List Char) : Prop := extra = [] ∨ ∃ q rest, extra = q :: rest ∧ isQuery q = true

/-- Both take the same user information off the same authority. -/
theorem Located.split {url : List Char} (hp : Located url) : ∃ authority extra, Uri.authority url = some authority ∧
    urlAuthority url = Uri.afterLastAt authority ++ extra ∧
    (∀ c ∈ Uri.afterLastAt authority, isQuery c = false) ∧ Beyond extra := by
  obtain ⟨⟨scheme, rest, rfl, hne, hs⟩, hquery⟩ := hp
  have hsep := @afterSeparator_append _ rest hs
  rw [hsep, Option.getD_some] at hquery
  refine ⟨rest.takeWhile Uri.isPlain, (rest.takeWhile (· ≠ '/')).dropWhile fun c => !isQuery c,
    Uri.authority_append hne hs, ?_, fun c hc => ?_, ?_⟩
  · unfold urlAuthority
    rw [hsep, Option.getD_some, takeWhile_isPlain, ← Uri.afterLastAt_append hquery,
      List.takeWhile_append_dropWhile]
  · have hmem := Uri.mem_of_mem_afterLastAt hc
    rw [takeWhile_isPlain] at hmem
    simpa using List.mem_takeWhile_imp (p := fun c => !isQuery c) hmem
  · cases hextra : (rest.takeWhile (· ≠ '/')).dropWhile fun c => !isQuery c with
    | nil => exact .inl rfl
    | cons q extra =>
      refine .inr ⟨q, extra, rfl, ?_⟩
      have hhead := List.head?_dropWhile_not (fun c => !isQuery c) (rest.takeWhile (· ≠ '/'))
      rw [hextra] at hhead
      simpa using hhead

/-- An accepted host does not come to the query, or has all that is before it. -/
theorem host_before_query {l extra : List Char} {stop : Char} (hx : Beyond extra) (hstop : isQuery stop = false)
    (ha : Accepted ((l ++ extra).takeWhile (· ≠ stop))) :
    (stop ∈ l ∨ extra = []) ∧ (l ++ extra).takeWhile (· ≠ stop) = l.takeWhile (· ≠ stop) := by
  have hall : stop ∉ l → ∀ c ∈ l, decide (c ≠ stop) = true := by
    intro hno c hc
    rw [decide_eq_true_iff]
    rintro rfl
    exact hno hc
  rcases hx with rfl | ⟨q, rest, rfl, hq⟩
  · exact ⟨.inr rfl, by rw [List.append_nil]⟩
  · by_cases hmem : stop ∈ l
    · refine ⟨.inl hmem, ?_⟩
      obtain ⟨before, after, rfl, hno⟩ := List.eq_append_cons_of_mem hmem
      have hbefore : ∀ c ∈ before, decide (c ≠ stop) = true := by
        intro c hc
        rw [decide_eq_true_iff]
        rintro rfl
        exact hno hc
      rw [List.append_assoc, List.cons_append, Uri.takeWhile_append_of_stop hbefore (by simp),
        Uri.takeWhile_append_of_stop hbefore (by simp)]
    · have hne : decide (q ≠ stop) = true := by
        rw [decide_eq_true_iff]
        rintro rfl
        rw [hq] at hstop
        cases hstop
      have hin : q ∈ (l ++ q :: rest).takeWhile (· ≠ stop) := by
        rw [List.takeWhile_append_of_pos (hall hmem), List.takeWhile_cons, if_pos hne]
        exact List.mem_append_right _ (List.mem_cons_self ..)
      exact absurd hq (by simp [ha.not_isQuery q hin])

theorem hostOf_literal {authority rest : List Char} (hi : Uri.afterLastAt authority = '[' :: rest) :
    Uri.hostOf authority = match rest.dropWhile (· ≠ ']') with
      | [_] => some (.literal (rest.takeWhile (· ≠ ']')))
      | _ :: ':' :: _ => some (.literal (rest.takeWhile (· ≠ ']')))
      | _ => none := by
  unfold Uri.hostOf
  rw [hi]
  rfl

theorem hostOf_name {authority : List Char} (hi : ∀ rest, Uri.afterLastAt authority ≠ '[' :: rest) :
    Uri.hostOf authority = some (.name ((Uri.afterLastAt authority).takeWhile (· ≠ ':'))) := by
  unfold Uri.hostOf
  split
  · rename_i rest heq
    exact absurd heq (hi rest)
  · rfl

theorem authorityHost_name {l : List Char} (hl : ∀ rest, l ≠ '[' :: rest) :
    authorityHost l = l.takeWhile (· ≠ ':') := by
  unfold authorityHost
  split
  · rename_i rest
    exact absurd rfl (hl rest)
  · rfl

/-- An accepted name is this machine. -/
theorem Accepted.name {host : List Char} (ha : Accepted host) : (Uri.Host.name host).isLoopback = true := by
  rcases ha with rfl | ⟨ip, hip, hloop⟩
  · decide +kernel
  · simp [Uri.Host.isLoopback, hip, hloop]

/-- What is accepted in brackets is this machine if it is an IPv6 address. -/
theorem Accepted.literal {host : List Char} (ha : Accepted host) :
    (Uri.Host.literal host).isLoopback = (Net.parseIp host).any Net.IpAddr.isV6 := by
  rcases ha with rfl | ⟨ip, hip, hloop⟩
  · decide +kernel
  · simp [Uri.Host.isLoopback, hip, hloop]

/-- In the authority that both look at, only brackets make a difference. -/
theorem loopback_iff_brackets {authority extra : List Char}
    (hq : ∀ c ∈ Uri.afterLastAt authority, isQuery c = false) (hx : Beyond extra)
    (ha : Accepted (authorityHost (Uri.afterLastAt authority ++ extra))) :
    (∃ h, Uri.hostOf authority = some h ∧ h.isLoopback = true) ↔
      bracketsHold (Uri.afterLastAt authority ++ extra) = true := by
  by_cases hbracket : ∃ rest, Uri.afterLastAt authority = '[' :: rest
  · obtain ⟨rest, hi⟩ := hbracket
    rw [hostOf_literal hi]
    rw [hi, List.cons_append] at ha ⊢
    have ha : Accepted ((rest ++ extra).takeWhile (· ≠ ']')) := ha
    obtain ⟨hclosed, htake⟩ := host_before_query hx (by decide) ha
    rw [htake] at ha
    have hbr : bracketsHold ('[' :: (rest ++ extra)) = ((Uri.Host.literal (rest.takeWhile (· ≠ ']'))).isLoopback &&
        match (rest ++ extra).dropWhile (· ≠ ']') with
        | [_] => true
        | _ :: c :: _ => c = ':' || isQuery c
        | [] => false) := by
      rw [ha.literal, ← htake]
      rfl
    rw [hbr]
    by_cases hmem : ']' ∈ rest
    · obtain ⟨before, after, rfl, hno⟩ := List.eq_append_cons_of_mem hmem
      have hbefore : ∀ c ∈ before, decide (c ≠ ']') = true := by
        intro c hc
        rw [decide_eq_true_iff]
        rintro rfl
        exact hno hc
      have hdrop : (before ++ ']' :: after).dropWhile (· ≠ ']') = ']' :: after :=
        Uri.dropWhile_append_of_stop hbefore (by simp)
      have hdrop' : ((before ++ ']' :: after) ++ extra).dropWhile (· ≠ ']') = ']' :: (after ++ extra) := by
        rw [List.append_assoc, List.cons_append]
        exact Uri.dropWhile_append_of_stop hbefore (by simp)
      rw [hdrop, hdrop']
      cases after with
      | nil =>
        rcases hx with rfl | ⟨q, rest, rfl, hquery⟩
        · simp
        · simp [hquery]
      | cons c after =>
        have hcq : isQuery c = false := hq c (by rw [hi]; simp)
        by_cases hc : c = ':'
        · subst hc
          simp
        · simp [hc, hcq]
    · have hextra := hclosed.resolve_left hmem
      subst hextra
      have hdrop : rest.dropWhile (· ≠ ']') = [] := by
        rw [List.dropWhile_eq_nil_iff]
        intro c hc
        rw [decide_eq_true_iff]
        rintro rfl
        exact hmem hc
      rw [List.append_nil, hdrop]
      simp
  · have hno : ∀ rest, Uri.afterLastAt authority ≠ '[' :: rest := fun rest heq => hbracket ⟨rest, heq⟩
    have hno' : ∀ rest, Uri.afterLastAt authority ++ extra ≠ '[' :: rest := by
      intro rest heq
      cases hinfo : Uri.afterLastAt authority with
      | nil =>
        rw [hinfo, List.nil_append] at heq
        rcases hx with rfl | ⟨q, extra, rfl, hquery⟩
        · cases heq
        · obtain rfl := (List.cons.inj heq).1
          exact absurd hquery (by decide)
      | cons c info =>
        rw [hinfo, List.cons_append] at heq
        obtain ⟨rfl, _⟩ := List.cons.inj heq
        exact hno info hinfo
    rw [authorityHost_name hno'] at ha
    obtain ⟨_, htake⟩ := host_before_query hx (by decide) ha
    rw [htake] at ha
    have hbr : bracketsHold (Uri.afterLastAt authority ++ extra) = true := by
      unfold bracketsHold
      split
      · rename_i rest heq
        exact absurd heq (hno' rest)
      · rfl
    rw [hostOf_name hno, hbr]
    exact ⟨fun _ => rfl, fun _ => ⟨_, rfl, ha.name⟩⟩

/-- When an accepted URL is on this machine: the check finds its authority and brackets hold an IPv6
address; or it looks elsewhere, and the authority is on this machine as well. -/
def FitsCheck (url : List Char) : Prop :=
  Located url ∧ bracketsHold (urlAuthority url) = true ∨ ¬ Located url ∧ Uri.IsLoopback url

theorem loopback_iff_fits {url : String} (ha : urlHostIsLoopback url = true) :
    Uri.IsLoopback url.toList ↔ FitsCheck url.toList := by
  by_cases hp : Located url.toList
  · obtain ⟨authority, extra, hauth, hurl, hq, hx⟩ := hp.split
    have ha := urlHostIsLoopback_iff.1 ha
    rw [hurl] at ha
    have hiff := loopback_iff_brackets hq hx ha
    unfold FitsCheck Uri.IsLoopback Uri.host
    rw [hauth, hurl]
    simp [hp, hiff]
  · simp [FitsCheck, hp]

/-! ## Every URL in the environment of the engine -/

theorem withEnv_ok {cfg cfg' : SidecarConfig} {key value : String} (h : cfg.withEnv key value = .ok cfg') :
    cfg'.extraEnv = cfg.extraEnv ++ [(key, value)] ∧
      (key = "XMR_WALLET_RPC" → urlHostIsLoopback value = true) := by
  unfold SidecarConfig.withEnv at h
  split at h
  · cases h
  · rename_i hurl
    split at h
    · cases h
    · split at h
      · cases h
      · split at h
        · cases h
        · obtain rfl := Except.ok.inj h
          exact ⟨rfl, fun hk => by simpa [hk] using hurl⟩

theorem new_extraEnv {python engineDir envPreset : String} {cfg : SidecarConfig}
    (h : SidecarConfig.new python engineDir envPreset = .ok cfg) : cfg.extraEnv = [] := by
  unfold SidecarConfig.new SidecarConfig.newForLeg at h
  split at h
  · cases h
  · split at h
    · cases h
    · dsimp only at h
      split at h
      · cases h
      · cases hnet : chainBNetworkFor envPreset with
        | ok net =>
          rw [hnet] at h
          obtain rfl := Except.ok.inj h
          rfl
        | error e =>
          rw [hnet] at h
          cases h

theorem withSome_ok {cfg cfg' : SidecarConfig} {key : String} {value : Option String}
    (h : cfg.withSome key value = .ok cfg') : cfg'.extraEnv = cfg.extraEnv ++ value.toList.map (key, ·) := by
  cases value with
  | none =>
    obtain rfl := Except.ok.inj h
    simp
  | some v => exact (withEnv_ok h).1

theorem buildConfig_ok {p : ArmParams} {dataDir : String} {cfg : SidecarConfig}
    (h : buildConfig p dataDir = .ok cfg) : urlHostIsLoopback p.xmrWalletRpc = true ∧
      cfg.extraEnv = [("ADA_ENGINE_STATE_KEY", p.stateKey), ("XMR_WALLET_RPC", p.xmrWalletRpc),
        ("BLOCKFROST_PROJECT_ID", p.blockfrostProjectId)] ++
        p.xmrWatchWalletRpc.toList.map ("XMR_WATCH_WALLET_RPC", ·) ++
        p.fundingSkeyHex.toList.map ("ADA_FUNDING_SKEY_HEX", ·) := by
  unfold buildConfig at h
  obtain ⟨cfg₀, h₀, h⟩ := ok_of_bind h
  obtain ⟨cfg₁, h₁, h⟩ := ok_of_bind h
  obtain ⟨cfg₂, h₂, h⟩ := ok_of_bind h
  obtain ⟨cfg₃, h₃, h⟩ := ok_of_bind h
  obtain ⟨cfg₄, h₄, h⟩ := ok_of_bind h
  obtain ⟨he₁, _⟩ := withEnv_ok (ok_of_mapError h₁)
  obtain ⟨he₂, hurl⟩ := withEnv_ok (ok_of_mapError h₂)
  obtain ⟨he₃, _⟩ := withEnv_ok (ok_of_mapError h₃)
  refine ⟨hurl rfl, ?_⟩
  rw [withSome_ok (ok_of_mapError h), withSome_ok (ok_of_mapError h₄), he₃, he₂, he₁]
  have h₀ := new_extraEnv (ok_of_mapError h₀)
  simp [SidecarConfig.withDataDir, h₀]

theorem evaluateArm_proceed {get : String → Option String} {isDebug : Bool} {p : ArmParams}
    (h : evaluateArm get isDebug = .proceed p) : get "XMR_WALLET_RPC" = some p.xmrWalletRpc ∧
      p.xmrWatchWalletRpc = nonempty get "XMR_WATCH_WALLET_RPC" := by
  unfold evaluateArm at h
  split at h
  · cases h
  · split at h
    · cases h
    · split at h
      · cases h
      · rename_i hfind
        dsimp only at h
        split at h
        · cases h
        · obtain rfl := ArmDecision.proceed.inj h
          refine ⟨?_, rfl⟩
          have hsome := List.find?_eq_none.1 hfind ("XMR_WALLET_RPC", "the loopback XMR wallet-rpc") (by decide)
          cases hval : nonempty get "XMR_WALLET_RPC" with
          | none => simp [hval] at hsome
          | some value =>
            exact (Option.filter_eq_some_iff.1 hval).1

/-- The URLs of the wallet, in the environment of the engine. -/
def SidecarConfig.WalletUrl (cfg : SidecarConfig) (url : String) : Prop :=
  ("XMR_WALLET_RPC", url) ∈ cfg.extraEnv ∨ ("XMR_WATCH_WALLET_RPC", url) ∈ cfg.extraEnv

/-- The check takes only URLs of this machine, except where it looks elsewhere or brackets mislead it; and
the engine gets only such URLs if that is so of the spending one, and the watching one is one of them. -/
theorem wallet_loopback_iff (url : String) (get : String → Option String) (isDebug : Bool) :
    ((urlHostIsLoopback url = true → Uri.IsLoopback url.toList) ↔
      (urlHostIsLoopback url = true → FitsCheck url.toList)) ∧
    ∀ (p : ArmParams) (dataDir : String) (cfg : SidecarConfig),
      evaluateArm get isDebug = .proceed p → buildConfig p dataDir = .ok cfg →
      ((∀ url, cfg.WalletUrl url → Uri.IsLoopback url.toList) ↔
        (∀ url, get "XMR_WALLET_RPC" = some url → FitsCheck url.toList) ∧
          ∀ url, nonempty get "XMR_WATCH_WALLET_RPC" = some url → Uri.IsLoopback url.toList) := by
  refine ⟨⟨fun h ha => (loopback_iff_fits ha).1 (h ha), fun h ha => (loopback_iff_fits ha).2 (h ha)⟩,
    fun p dataDir cfg hproceed hcfg => ?_⟩
  obtain ⟨hspend, hwatch⟩ := evaluateArm_proceed hproceed
  obtain ⟨haccepted, henv⟩ := buildConfig_ok hcfg
  have hurls : ∀ url, cfg.WalletUrl url ↔ url = p.xmrWalletRpc ∨ p.xmrWatchWalletRpc = some url := by
    intro url
    unfold SidecarConfig.WalletUrl
    rw [henv]
    simp
  rw [hspend, ← hwatch]
  constructor
  · intro hall
    refine ⟨fun url hurl => ?_, fun url hurl => hall url ((hurls url).2 (.inr hurl))⟩
    obtain rfl := Option.some.inj hurl
    exact (loopback_iff_fits haccepted).1 (hall _ ((hurls _).2 (.inl rfl)))
  · rintro ⟨hfits, hloop⟩ url hurl
    rcases (hurls url).1 hurl with rfl | hurl
    · exact (loopback_iff_fits haccepted).2 (hfits _ rfl)
    · exact hloop url hurl

/-! ## Two environments -/

/-- The environment of an armed debug build. -/
def armedEnv (rpc : String) (watch : Option String) (k : String) : Option String :=
  if k = "XMR_WATCH_WALLET_RPC" then watch
  else
    [("PWNDA_DESK_ARM", "1"), ("PWNDA_ENGINE_PYTHON", "python3"), ("PWNDA_ENGINE_DIR", "engine"),
      ("ADA_ENGINE_ENV", "preprod"), ("BLOCKFROST_PROJECT_ID", "preprodId"), ("XMR_WALLET_RPC", rpc),
      ("ADA_ENGINE_STATE_KEY", "key")].lookup k

def armedParams (rpc : String) (watch : Option String) : ArmParams :=
  ⟨"python3", "engine", "preprod", "preprodId", rpc, watch, "key", none⟩

def armedConfig (rpc : String) (watch : Option String) : SidecarConfig :=
  ⟨"python3", "engine", "preprod", some "data", "xmr-stagenet", .ada,
    [("ADA_ENGINE_STATE_KEY", "key"), ("XMR_WALLET_RPC", rpc), ("BLOCKFROST_PROJECT_ID", "preprodId")] ++
      watch.toList.map ("XMR_WATCH_WALLET_RPC", ·)⟩

theorem ok_of_toOption {ε α : Type} {x : Except ε α} {a : α} (h : x.toOption = some a) : x = .ok a := by
  cases x with
  | ok b => rw [Option.some.inj h]
  | error e => cases h

def goodRpc : String := "http://127.0.0.1:38083/json_rpc"

def goodWatch : String := "http://[::1]:38084/json_rpc"

/-- Both wallets are on this machine. -/
theorem wallet_loopback_iff_armed : ∀ url, (armedConfig goodRpc (some goodWatch)).WalletUrl url →
    Uri.IsLoopback url.toList := by
  have hlocated : Located goodRpc.toList :=
    ⟨⟨"http".toList, "127.0.0.1:38083/json_rpc".toList, by decide +kernel, by decide +kernel,
      List.all_eq_true.1 (by decide +kernel)⟩, by decide +kernel⟩
  refine ((wallet_loopback_iff goodRpc (armedEnv goodRpc (some goodWatch)) true).2
    (armedParams goodRpc (some goodWatch)) "data" _ (by decide +kernel)
    (ok_of_toOption (by decide +kernel))).2 ⟨fun url hurl => ?_, fun url hurl => ?_⟩
  · have hrpc : armedEnv goodRpc (some goodWatch) "XMR_WALLET_RPC" = some goodRpc := by decide +kernel
    obtain rfl := Option.some.inj (hrpc.symm.trans hurl)
    exact .inl ⟨hlocated, by decide +kernel⟩
  · have hwatch : nonempty (armedEnv goodRpc (some goodWatch)) "XMR_WATCH_WALLET_RPC" = some goodWatch := by
      decide +kernel
    obtain rfl := Option.some.inj (hwatch.symm.trans hurl)
    decide +kernel

/-- The host of this URL ends at the question mark. -/
def evilRpc : String := "http://evil.com?@127.0.0.1:18083/json_rpc"

theorem not_always_loopback : ¬ ∀ (get : String → Option String) (isDebug : Bool) (p : ArmParams)
    (dataDir : String) (cfg : SidecarConfig), evaluateArm get isDebug = .proceed p →
    buildConfig p dataDir = .ok cfg → ∀ url, cfg.WalletUrl url → Uri.IsLoopback url.toList := by
  intro hall
  have hloop := hall (armedEnv evilRpc none) true (armedParams evilRpc none) "data" (armedConfig evilRpc none)
    (by decide +kernel) (ok_of_toOption (by decide +kernel)) evilRpc (.inl (by decide +kernel))
  exact absurd hloop (by decide +kernel)

end Desk
