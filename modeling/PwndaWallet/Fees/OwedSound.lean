import PwndaWallet.Fees.OnceSound

/-!
# Nobody is charged who must not be

A withdraw is issued by a live pass only, for a bid that the pass has read and priced. A settled
record is never written again, so its bid is not charged by any later pass, in any mode.
-/

namespace Fees

open Rust Tasks Tasks.Fs Bridge

variable {h : Host} {strict : Prop}

/-- In no run from `c` does the record of the bid change, and none issues a withdraw for it. -/
def Absorbed (h : Host) (c : Cfg) (bid : String) (rec : FeeRecord) : Prop :=
  ∀ c₁, FeeRun h False c c₁ → record h c₁.world.dir bid = some rec ∧
    ∀ tr c₂, FeeStep h False c₁ tr c₂ → ∀ path body r, ⟨.post bid path body, r⟩ ∉ tr

/-- What a start or a pass that has the answers `tr` did about withdraws: each is owed, in the world
in which it was issued. -/
def OnlyOwed (h : Host) (c : Cfg) (tr : List (Ev FeeOp.Ans)) : Prop :=
  ∀ pre bid path body r post, tr = pre ++ ⟨.post bid path body, r⟩ :: post →
    ∃ b w, c.running = some (.live, b) ∧ StoredBaseline h c.world.dir b ∧
      FeeStep h False c (pre ++ [⟨.post bid path body, r⟩]) ⟨w, none⟩ ∧
      Owed h .live b pre w.dir bid path body

theorem onlyOwed_tick {w w' : World} {m : Mode} {b : Int} {tr : List (Ev FeeOp.Ans)} {q : FeeProg Pass}
    (hc : Cfg.Sound h False ⟨w, some (m, b)⟩) (he : Exec (FeeOp.does h False) (tick h m b) w tr q w') :
    OnlyOwed h ⟨w, some (m, b)⟩ tr := by
  intro pre bid path body r post heq
  subst heq
  obtain ⟨hm, hb⟩ := hc.runs m b rfl
  obtain ⟨q₁, w₁, he₁⟩ := exec_upto he
  have hg := (safe_exec (tick_spec hc.ledger (.refl w) hm) (hc.ledger.going m b) he₁).1
  have howed := hg.owed pre bid path body r rfl
  obtain rfl : m = .live := howed.1
  exact ⟨b, w₁, rfl, hb, .crashed he₁ fun hf => hf.elim, howed⟩

/-- The start issues nothing. -/
theorem no_post_startup {w w' : World} {tr : List (Ev FeeOp.Ans)} {q : FeeProg Int}
    (hs : Sound h strict w) (he : Exec (FeeOp.does h strict) (startup h) w tr q w') (bid path : String)
    (body : Json) (r : PostReply) : ⟨.post bid path body, r⟩ ∉ tr := by
  intro hmem
  obtain ⟨pre, post, heq⟩ := List.append_of_mem hmem
  subst heq
  obtain ⟨q₁, w₁, he₁⟩ := exec_upto he
  have hg := (safe_exec (startup_spec (m := .off) (b := 0) hs (.refl w)) (hs.going .off 0) he₁).1
  exact absurd (hg.owed pre bid path body r rfl).1 (fun h => nomatch h)

theorem FeeStep.onlyOwed {c c' : Cfg} {tr : List (Ev FeeOp.Ans)} (hstep : FeeStep h False c tr c')
    (hc : c.Sound h False) : OnlyOwed h c tr := by
  have hstart : ∀ {w w' : World} {q : FeeProg Int} {tr : List (Ev FeeOp.Ans)}, Sound h False w →
      Exec (FeeOp.does h False) (startup h) w tr q w' → OnlyOwed h ⟨w, none⟩ tr := by
    intro w w' q tr hs he pre bid path body r post heq
    exact absurd (by simp [heq]) (no_post_startup hs he bid path body r)
  cases hstep with
  | started _ he => exact hstart hc.ledger he
  | refused he => exact hstart hc.ledger he
  | startCrashed he _ => exact hstart hc.ledger he
  | passed he _ => exact onlyOwed_tick hc he
  | crashed he _ => exact onlyOwed_tick hc he

/-- A settled record stays, and its bid is not charged. -/
theorem absorbed_of_settled {c : Cfg} {bid : String} {rec : FeeRecord} (hc : c.Sound h False)
    (hr : record h c.world.dir bid = some rec) (hs : rec.isSettledForever = true) : Absorbed h c bid rec := by
  intro c₁ hrun
  obtain ⟨hc₁, hl₁⟩ := hrun.sound hc
  have hr₁ : record h c₁.world.dir bid = some rec := (record_congr (hl₁.settled bid rec hr hs)).trans hr
  refine ⟨hr₁, fun tr c₂ hstep path body r hmem => ?_⟩
  obtain ⟨pre, post, heq⟩ := List.append_of_mem hmem
  obtain ⟨b, w, _, _, hcut, howed⟩ := hstep.onlyOwed hc₁ pre bid path body r post heq
  obtain ⟨_, text, rec', ticker, amount, address, at_, _, _, _, _, _, hmarked, _⟩ := howed
  -- at the withdraw the record is the attempt marker, which is not settled
  have hl := (hcut.sound hc₁).2
  have hr₂ : record h w.dir bid = some rec := (record_congr (hl.settled bid rec hr₁ hs)).trans hr₁
  obtain rfl := Option.some.inj (hr₂.symm.trans hmarked)
  cases hs

/-- Each withdraw of a run is owed, and a settled record is absorbed. -/
theorem charged_only_if_owed {c₀ c c' : Cfg} {tr : List (Ev FeeOp.Ans)} (hi : c₀.Initial h)
    (hr : FeeRun h False c₀ c) (hstep : FeeStep h False c tr c') : OnlyOwed h c tr ∧
      ∀ bid rec, record h c.world.dir bid = some rec → rec.isSettledForever = true → Absorbed h c bid rec := by
  have hc := (hr.sound hi.sound).1
  exact ⟨hstep.onlyOwed hc, fun bid rec hrec hs => absorbed_of_settled hc hrec hs⟩

theorem charged_only_if_owed_sample :
    OnlyOwed sampleHost ⟨Stage.empty.start.world, some (.live, sampleBaseline)⟩
      (Stage.empty.start.run 40 (tick sampleHost .live sampleBaseline)).1 := by
  have he := Stage.empty.start.exec False 40 (tick sampleHost .live sampleBaseline)
  exact (charged_only_if_owed initial_empty (Stage.started_empty False) (.crashed he fun hf => hf.elim)).1

/-! ## A dark pass that is cut off -/

/-- The pass has priced the bid and written that down, in whichever file. -/
def Observes (h : Host) (tr : List (Ev FeeOp.Ans)) (bid : String) : Prop :=
  ∃ name text rec ticker amount notional at_, ⟨.fs (.write name text), .ok ()⟩ ∈ tr ∧
    h.fromPretty text = .ok rec ∧ rec.bidId = bid ∧ rec.state = .observed ticker amount notional at_

def wrote (name text : String) : Ev FeeOp.Ans → Bool
  | ⟨.fs (.write n t), .ok _⟩ => n == name && t == text
  | _ => false

theorem mem_of_wrote {name text : String} {tr : List (Ev FeeOp.Ans)} (hw : tr.any (wrote name text) = true) :
    ⟨.fs (.write name text), .ok ()⟩ ∈ tr := by
  obtain ⟨e, he, hwrote⟩ := List.any_eq_true.1 hw
  unfold wrote at hwrote
  split at hwrote
  · rw [Bool.and_eq_true, beq_iff_eq, beq_iff_eq] at hwrote
    obtain ⟨rfl, rfl⟩ := hwrote
    exact he
  · cases hwrote

def posted (bid : String) : Ev FeeOp.Ans → Bool
  | ⟨.post b _ _, _⟩ => b == bid
  | _ => false

theorem mem_of_posted {bid : String} {tr : List (Ev FeeOp.Ans)} (hp : tr.any (posted bid) = true) :
    ∃ path body r, ⟨.post bid path body, r⟩ ∈ tr := by
  obtain ⟨⟨o, r⟩, he, hposted⟩ := List.any_eq_true.1 hp
  unfold posted at hposted
  split at hposted
  · rename_i heq
    cases heq
    obtain rfl := beq_iff_eq.1 hposted
    exact ⟨_, _, _, he⟩
  · cases hposted

/-- The first 14 steps of a dark pass: the observed record is in the temporary file. -/
def Stage.dark (s : Stage) : List (Ev FeeOp.Ans) × FeeProg Pass × Stage :=
  s.run 14 (tick sampleHost .dark sampleBaseline)

/-- A dark pass is cut off before its record is in its place, and a live run charges the bid. -/
theorem not_absorbed_when_cut : ¬ ∀ (h : Host) (c₀ c c' : Cfg) (tr : List (Ev FeeOp.Ans)) (b : Int)
    (bid : String), c₀.Initial h → FeeRun h False c₀ c → c.running = some (.dark, b) →
    FeeStep h False c tr c' → Observes h tr bid → ∀ c₁, FeeRun h False c' c₁ →
    ∀ tr' c₂, FeeStep h False c₁ tr' c₂ → ∀ path body r, ⟨.post bid path body, r⟩ ∉ tr' := by
  intro hall
  have hstart : FeeRun sampleHost False ⟨Stage.empty.world, none⟩
      ⟨Stage.empty.start.world, some (.dark, sampleBaseline)⟩ := by
    have he := Stage.empty.exec False 20 (startup sampleHost)
    have hv : (Stage.empty.run 20 (startup sampleHost)).2.1.value = some sampleBaseline := by decide +kernel
    rw [eq_ret_of_value hv] at he
    exact .step .refl (.started (fun h => nomatch h) he)
  have hdark : FeeStep sampleHost False ⟨Stage.empty.start.world, some (.dark, sampleBaseline)⟩
      Stage.empty.start.dark.1 ⟨Stage.empty.start.dark.2.2.world, none⟩ :=
    .crashed (Stage.empty.start.exec False 14 _) fun hf => hf.elim
  have hobserved : Observes sampleHost Stage.empty.start.dark.1 "b1" := by
    have hw : (Stage.empty.start.dark.1.any (wrote "b1.json.tmp" sampleObserved.2)) = true := by
      decide +kernel
    have hfind : (sampleRecords.find? fun e => e.2 == sampleObserved.2) = some sampleObserved := by
      decide +kernel
    have hread : sampleHost.fromPretty sampleObserved.2 = .ok sampleObserved.1 := by
      rw [sampleHost_fromPretty]
      exact sampleFromPretty_find hfind
    exact ⟨"b1.json.tmp", sampleObserved.2, sampleObserved.1, "LTC", 1250000, 250000000, sampleTime,
      mem_of_wrote hw, hread, rfl, rfl⟩
  have hlive : FeeRun sampleHost False ⟨Stage.empty.start.dark.2.2.world, none⟩
      ⟨Stage.empty.start.dark.2.2.start.world, some (.live, sampleBaseline)⟩ :=
    .step .refl (Stage.started (by decide +kernel))
  have hcharged : (Stage.empty.start.dark.2.2.start.run 23
      (tick sampleHost .live sampleBaseline)).1.any (posted "b1") = true := by decide +kernel
  obtain ⟨path, body, r, hmem⟩ := mem_of_posted hcharged
  exact hall _ _ _ _ _ _ _ initial_empty hstart rfl hdark hobserved _ hlive _ _
    (.crashed (Stage.empty.start.dark.2.2.start.exec False 23 _) fun hf => hf.elim) path body r hmem

end Fees
