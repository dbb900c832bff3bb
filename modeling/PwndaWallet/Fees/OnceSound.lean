import PwndaWallet.Fees.WatcherSound

/-!
# A fee is collected once

Every start and every pass keeps the ledger sound, so a strict run never issues two withdraws of a
bid that may both have been broadcast. A reply that is cut off is taken for a refusal, and then a run
that is not strict does (`not_always_once`).
-/

namespace Fees

open Rust Tasks Tasks.Fs Bridge

variable {h : Host} {strict : Prop}

/-- The ledger is sound, and the watcher that runs has the baseline of the marker. -/
structure Cfg.Sound (h : Host) (strict : Prop) (c : Cfg) : Prop where
  ledger : Fees.Sound h strict c.world
  runs : ∀ m b, c.running = some (m, b) → m ≠ .off ∧ StoredBaseline h c.world.dir b

theorem Cfg.Initial.sound {c : Cfg} (hi : c.Initial h) : c.Sound h strict := by
  obtain ⟨hrun, hissued, hnamed⟩ := hi
  refine ⟨⟨hnamed, fun _ bid => ?_, fun _ bid hb => ?_⟩, fun m b hm => ?_⟩
  · rw [hissued]
    exact Nat.zero_le _
  · obtain ⟨i, hi, _⟩ := hb
    rw [hissued] at hi
    cases hi
  · rw [hrun] at hm
    cases hm

theorem StoredBaseline.later {w w' : World} {b : Int} (hb : StoredBaseline h w.dir b)
    (hl : Later h w w') : StoredBaseline h w'.dir b := by
  obtain ⟨text, t, hfile, ht, htime⟩ := hb
  exact ⟨text, t, hl.marker _ hfile, ht, htime⟩

/-- Where a part begins. -/
theorem Sound.going {w : World} (hs : Sound h strict w) (m : Mode) (b : Int) :
    Going h strict w m b w [] :=
  ⟨hs.kept, .refl w, fun pre bid path body r heq => absurd heq.symm (by simp)⟩

/-- One start or pass. -/
theorem FeeStep.sound {c c' : Cfg} {tr : List (Ev FeeOp.Ans)} (hstep : FeeStep h strict c tr c')
    (hc : c.Sound h strict) : c'.Sound h strict ∧ Later h c.world c'.world := by
  have hs := hc.ledger
  have hl := Later.refl (h := h) c.world
  cases hstep with
  | started hm he =>
    obtain ⟨hw, hb⟩ := ended_exec (startup_spec (m := .off) (b := 0) hs hl) (hs.going _ _) he rfl
    refine ⟨⟨hw.sound, fun m b hmb => ?_⟩, hw.later⟩
    obtain ⟨rfl, rfl⟩ := Prod.mk.inj (Option.some.inj hmb)
    exact ⟨hm, hb _ rfl⟩
  | refused he =>
    obtain ⟨hw, _⟩ := ended_exec (startup_spec (m := .off) (b := 0) hs hl) (hs.going _ _) he rfl
    exact ⟨⟨hw.sound, fun _ _ hmb => nomatch hmb⟩, hw.later⟩
  | startCrashed he hn =>
    have hg := (safe_exec (startup_spec (m := .off) (b := 0) hs hl) (hs.going _ _) he).1
    exact ⟨⟨hg.kept.sound hn, fun _ _ hmb => nomatch hmb⟩, hg.later⟩
  | passed he hr =>
    obtain ⟨hm, hb⟩ := hc.runs _ _ rfl
    have hw := ended_exec (tick_spec hs hl hm) (hs.going _ _) he hr
    refine ⟨⟨hw.sound, fun m b hmb => ?_⟩, hw.later⟩
    obtain ⟨rfl, rfl⟩ := Prod.mk.inj (Option.some.inj hmb)
    exact ⟨hm, hb.later hw.later⟩
  | crashed he hn =>
    obtain ⟨hm, _⟩ := hc.runs _ _ rfl
    have hg := (safe_exec (tick_spec hs hl hm) (hs.going _ _) he).1
    exact ⟨⟨hg.kept.sound hn, fun _ _ hmb => nomatch hmb⟩, hg.later⟩

theorem FeeRun.sound {c c' : Cfg} (hr : FeeRun h strict c c') (hc : c.Sound h strict) :
    c'.Sound h strict ∧ Later h c.world c'.world := by
  induction hr with
  | refl => exact ⟨hc, .refl _⟩
  | step _ hstep ih =>
    obtain ⟨hc', hl⟩ := hstep.sound ih.1
    exact ⟨hc', ih.2.trans hl⟩

/-- In a strict run at most one withdraw of a bid may have been broadcast. -/
theorem withdrawn_at_most_once {c₀ c : Cfg} (hi : c₀.Initial h) (hr : FeeRun h True c₀ c) :
    AtMostOnce h c.world :=
  (hr.sound hi.sound).1.ledger.once trivial

/-! ## A run on a directory that is computed -/

/-- 2026-01-01, midnight -/
def sampleNow : Int := 1767225600000000000

def sampleTime : String := "2026-01-01T00:00:00+00:00"

/-- Any other time, in strokes. -/
def strokes (t : Int) : String := String.ofList ((if t < 0 then 'n' else 'p') :: List.replicate t.natAbs 'i')

def readStrokes : List Char → Except String Int
  | 'p' :: cs => .ok cs.length
  | 'n' :: cs => .ok (-cs.length)
  | _ => .error "input contains invalid characters"

theorem readStrokes_strokes (t : Int) : readStrokes (strokes t).toList = .ok t := by
  unfold strokes
  rw [String.toList_ofList]
  by_cases ht : t < 0
  · rw [if_pos ht]
    simp only [readStrokes, List.length_replicate]
    congr 1
    omega
  · rw [if_neg ht]
    simp only [readStrokes, List.length_replicate]
    congr 1
    omega

theorem trim_strokes (t : Int) : trim (strokes t) = strokes t := by
  refine trim_of_all fun c hc => ?_
  unfold strokes at hc
  rw [String.toList_ofList] at hc
  have hchar : c = 'n' ∨ c = 'p' ∨ c = 'i' := by
    rcases List.mem_cons.1 hc with rfl | hc
    · split <;> simp
    · exact .inr (.inr (List.eq_of_mem_replicate hc))
  rcases hchar with rfl | rfl | rfl <;> decide

def sampleObserved : FeeRecord × String :=
  (⟨"b1", .observed "LTC" 1250000 250000000 sampleTime, "dark run — priced, not collected"⟩,
    "\x7b\n  \"bid_id\": \"b1\",\n  \"state\": \"observed\",\n  \"ticker\": \"LTC\",\n  \"amount\": 1250000," ++
      "\n  \"notional\": 250000000,\n  \"at\": \"2026-01-01T00:00:00+00:00\"," ++
      "\n  \"detail\": \"dark run — priced, not collected\"\n\x7d")

/-- The records of the bid `b1`, with the texts they are kept in. -/
def sampleRecords : List (FeeRecord × String) :=
  [(⟨"b1", .watching, ""⟩,
      "\x7b\n  \"bid_id\": \"b1\",\n  \"state\": \"watching\",\n  \"detail\": \"\"\n\x7d"),
    (⟨"b1", .attempting "LTC" 1250000 sampleTime, ""⟩,
      "\x7b\n  \"bid_id\": \"b1\",\n  \"state\": \"attempting\",\n  \"ticker\": \"LTC\",\n  \"amount\": 1250000," ++
        "\n  \"at\": \"2026-01-01T00:00:00+00:00\",\n  \"detail\": \"\"\n\x7d"),
    (⟨"b1", .paid "LTC" 1250000 "t1" sampleTime, ""⟩,
      "\x7b\n  \"bid_id\": \"b1\",\n  \"state\": \"paid\",\n  \"ticker\": \"LTC\",\n  \"amount\": 1250000," ++
        "\n  \"txid\": \"t1\",\n  \"at\": \"2026-01-01T00:00:00+00:00\",\n  \"detail\": \"\"\n\x7d"),
    sampleObserved]

def sampleFromPretty (text : String) : Except String FeeRecord :=
  match sampleRecords.find? fun e => e.2 == text with
  | some e => .ok e.1
  | none => .error "expected value at line 1 column 1"

theorem sampleFromPretty_find {text : String} {e : FeeRecord × String}
    (he : (sampleRecords.find? fun e => e.2 == text) = some e) : sampleFromPretty text = .ok e.1 := by
  unfold sampleFromPretty
  rw [he]

def sampleHost : Host where
  toPretty rec :=
    match sampleRecords.find? fun e => e.1 == rec with
    | some e => .ok e.2
    | none => .error "unknown record"
  fromPretty := sampleFromPretty
  fromPretty_toPretty := by
    intro rec text ht
    split at ht
    · rename_i e he
      obtain rfl := Except.ok.inj ht
      have hrec : e.1 = rec := by simpa using List.find?_some he
      have hall : ∀ e ∈ sampleRecords, (sampleRecords.find? fun e' => e'.2 == e.2) = some e := by
        decide +kernel
      rw [← hrec]
      exact sampleFromPretty_find (hall e (List.mem_of_find?_eq_some he))
    · cases ht
  toRfc3339 t := if t = sampleNow then sampleTime else strokes t
  parseRfc3339 text := if text = sampleTime then .ok sampleNow else readStrokes text.toList
  parse_toRfc3339 := by
    intro t
    by_cases ht : t = sampleNow
    · have htrim : trim sampleTime = sampleTime := by decide +kernel
      rw [if_pos ht, htrim, if_pos rfl, ht]
    · rw [if_neg ht, trim_strokes, readStrokes_strokes, if_neg]
      intro heq
      have hhead := congrArg (fun s => s.toList.head?) heq
      simp only [strokes, String.toList_ofList, List.head?_cons] at hhead
      split at hhead <;> exact absurd hhead (by decide)
  parseJson text := if text = "\x7b\"txid\":\"t1\"\x7d" then .ok (.obj [("txid", .str "t1")]) else .error "expected value"
  printJson _ := ""
  parsedF64 text := if text = "0.01250000" then some true else none
  below100 _ := false
  balanceF64 _ := none

theorem sampleHost_fromPretty (text : String) : sampleHost.fromPretty text = sampleFromPretty text := rfl

/-- The node's answers: the bid `b1` is completed, and the wallet has 10 LTC. -/
def sampleReply (path : String) : Except String Json :=
  if path = "sentbids" then .ok (.arr [.obj [("bid_id", .str "b1")]])
  else if path = "bids/b1" then
    .ok (.obj [("bid_id", .str "b1"), ("bid_state_ind", .int 8), ("ticker_from", .str "XMR"),
      ("ticker_to", .str "LTC"), ("amt_from", .str "1"), ("amt_to", .str "2.5"),
      ("created_at_timestamp", .int 1767225600)])
  else if path = "wallets/LTC" then .ok (.obj [("balance", .str "10.00000000"), ("synced", .str "100.00")])
  else .ok (.arr [])

/-- The files, and the withdraws that were issued. -/
structure Stage where
  files : Files String
  issued : List Issue

def Stage.world (s : Stage) : World := ⟨s.files.dir, s.issued⟩

/-- Every file step works, it is always the same moment, and every withdraw is made. -/
def Stage.answer (s : Stage) : (o : FeeOp) → Option (o.Ans × Stage)
  | .fs o => (o.perform s.files).map fun (r, files) => (r, { s with files })
  | .now => some (sampleNow, s)
  | .apiContext => some (true, s)
  | .api path _ => some (sampleReply path, s)
  | .post bid path body =>
    let r := PostReply.answered 200 "\x7b\"txid\":\"t1\"\x7d"
    some (r, { s with issued := s.issued ++ [⟨bid, path, body, r⟩] })

theorem does_answer (strict : Prop) (s : Stage) (o : FeeOp) (r : o.Ans) (s' : Stage)
    (hr : s.answer o = some (r, s')) : FeeOp.does sampleHost strict o r s.world s'.world := by
  cases o with
  | fs o =>
    obtain ⟨⟨r', files⟩, hp, heq⟩ := Option.map_eq_some_iff.1 hr
    obtain ⟨rfl, rfl⟩ := Prod.mk.inj heq
    refine ⟨⟨does_perform hp, rfl⟩, fun _ => ?_⟩
    cases o with
    | rename source target =>
      obtain ⟨b, _, hb⟩ := Option.map_eq_some_iff.1 hp
      obtain ⟨rfl, _⟩ := Prod.mk.inj hb
      exact trivial
    | _ => exact trivial
  | now =>
    obtain ⟨_, rfl⟩ := Prod.mk.inj (Option.some.inj hr)
    exact ⟨rfl, fun _ => trivial⟩
  | apiContext =>
    obtain ⟨_, rfl⟩ := Prod.mk.inj (Option.some.inj hr)
    exact ⟨rfl, fun _ => trivial⟩
  | api path post =>
    obtain ⟨_, rfl⟩ := Prod.mk.inj (Option.some.inj hr)
    exact ⟨rfl, fun _ => trivial⟩
  | post bid path body =>
    obtain ⟨rfl, rfl⟩ := Prod.mk.inj (Option.some.inj hr)
    have hread : misread sampleHost (.answered 200 "\x7b\"txid\":\"t1\"\x7d") = false := by decide +kernel
    exact ⟨rfl, fun _ => hread⟩

/-- `n` steps of a part, from a stage. -/
abbrev Stage.run {α : Type} (s : Stage) (n : Nat) (p : FeeProg α) :
    List (Ev FeeOp.Ans) × FeeProg α × Stage :=
  p.drive Stage.answer n s


def sampleBaseline : Int := 1767225600

/-- No record, and no marker. -/
def Stage.empty : Stage := ⟨[], []⟩

theorem initial_empty : Cfg.Initial sampleHost ⟨Stage.empty.world, none⟩ :=
  ⟨rfl, rfl, fun _ _ _ _ h => nomatch h⟩

theorem Stage.exec {α : Type} (strict : Prop) (s : Stage) (n : Nat) (p : FeeProg α) :
    Exec (FeeOp.does sampleHost strict) p s.world (s.run n p).1 (s.run n p).2.1 (s.run n p).2.2.world :=
  exec_drive (does_answer strict) n p s

/-- The watcher starts. -/
def Stage.start (s : Stage) : Stage := (s.run 20 (startup sampleHost)).2.2

/-- The first `n` steps of a live pass. -/
def Stage.pass (s : Stage) (n : Nat) : Stage := (s.run n (tick sampleHost .live sampleBaseline)).2.2

theorem Stage.started {s : Stage}
    (hv : (s.run 20 (startup sampleHost)).2.1.value = some sampleBaseline) :
    FeeStep sampleHost strict ⟨s.world, none⟩ (s.run 20 (startup sampleHost)).1
      ⟨s.start.world, some (.live, sampleBaseline)⟩ := by
  have he := s.exec strict 20 (startup sampleHost)
  rw [eq_ret_of_value hv] at he
  exact .started (fun h => nomatch h) he

theorem Stage.started_empty (strict : Prop) : FeeRun sampleHost strict ⟨Stage.empty.world, none⟩
    ⟨Stage.empty.start.world, some (.live, sampleBaseline)⟩ :=
  .step .refl (Stage.started (by decide +kernel))

/-- One pass collects the fee, and it was issued once. -/
theorem withdrawn_at_most_once_sample : AtMostOnce sampleHost (Stage.empty.start.pass 40).world := by
  have he := Stage.empty.start.exec True 40 (tick sampleHost .live sampleBaseline)
  obtain ⟨a, ha⟩ := ended_of_value (p := (Stage.empty.start.run 40
    (tick sampleHost .live sampleBaseline)).2.1) (by decide +kernel)
  exact withdrawn_at_most_once initial_empty (.step (Stage.started_empty True) (.passed he ha))

/-- The paid record is in its temporary file, and its predecessor was taken away. -/
def Stage.gap : Stage := Stage.empty.start.pass 23

/-- The wallet stops there; after the restart the bid is swept again, and there is a second withdraw. -/
theorem not_always_once : ¬ ∀ (h : Host) (c₀ c : Cfg), c₀.Initial h → FeeRun h False c₀ c →
    AtMostOnce h c.world := by
  intro hall
  have hgap : FeeRun sampleHost False ⟨Stage.empty.world, none⟩ ⟨Stage.gap.world, none⟩ :=
    .step (Stage.started_empty False) (.crashed (Stage.empty.start.exec False 23 _) fun hf => hf.elim)
  have hagain : FeeRun sampleHost False ⟨Stage.empty.world, none⟩
      ⟨Stage.gap.start.world, some (.live, sampleBaseline)⟩ :=
    .step hgap (Stage.started (by decide +kernel))
  have hend : FeeRun sampleHost False ⟨Stage.empty.world, none⟩ ⟨(Stage.gap.start.pass 23).world, none⟩ :=
    .step hagain (.crashed (Stage.gap.start.exec False 23 _) fun hf => hf.elim)
  have htwice : ((Stage.gap.start.pass 23).issued.filter fun i =>
      i.bid == "b1" && mayHaveBroadcast sampleHost i.reply).length = 2 := by decide +kernel
  have hle := hall sampleHost _ _ initial_empty hend "b1"
  exact absurd (htwice ▸ hle) (by decide)

end Fees
