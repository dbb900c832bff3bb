import PwndaWallet.Intents.SwapSession

/-!
# Who signs, and what a close ends

`session_signs_own`: in every run a signature is made with the mnemonic of an unlock of the stored vault, under
that unlock's id and in its time; and where no session was opened between a `closeSendSession`'s read and its
lock, the lock ends no other session.
-/

namespace SwapSession

open Rust Tasks

variable {env : Env}

/-! ## One answer -/

/-- What an answer says of the world, and does to the slot. -/
def Effect (w : SessionWorld) (now : Nat) (left : Option UnlockedSession) : (o : SessionOp) → o.Ans → Prop
  | .storeGet, r => left = w.session ∧ ∀ raw, r = .ok raw → raw = w.stored
  | .storeSet _, _ => left = w.session
  | .newSession, r => left = w.session ∧ r.2 = now
  | .put s, _ => left = w.session ∨ left = some s
  | .withSession sessionId f, none => left = w.session ∨ left = none ∧ ∀ s, w.session = some s → s.sessionId = sessionId
  | .withSession sessionId f, some x =>
    ∃ s, w.session = some s ∧ left = some s ∧ s.sessionId = sessionId ∧ now ≤ s.expiresAt ∧ x = f s.mnemonic
  | .lock, _ => left = w.session ∨ left = none

/-- Task `i` is answered `r`, which is logged as `e`. -/
structure Answered (i : Nat) (o : SessionOp) (r : o.Ans) (w w' : SessionWorld) (e : Logged) : Prop where
  log : w'.log = w.log ++ [e]
  task : e.task = i
  ev : e.ev = ⟨o, r⟩
  stored : e.stored = w.stored
  session : e.session = w.session
  left : e.left = w'.session
  effect : Effect w e.now w'.session o r

theorem withSession_effect {w : SessionWorld} {now : Nat} {sessionId : String} {f : String → Except String String} :
    Effect w now (withSession w.session now sessionId f).2 (.withSession sessionId f)
      (withSession w.session now sessionId f).1 := by
  unfold withSession
  cases hs : w.session with
  | none => exact .inl hs.symm
  | some s =>
    dsimp only
    by_cases hid : s.sessionId = sessionId
    · rw [if_neg (by simp [hid])]
      by_cases hlate : s.expiresAt < now
      · rw [if_pos hlate]
        refine .inr ⟨rfl, fun s' hs' => ?_⟩
        rw [hs] at hs'
        cases hs'
        exact hid
      · rw [if_neg hlate]
        exact ⟨s, hs, rfl, hid, Nat.not_lt.1 hlate, rfl⟩
    · rw [if_pos (by simp [hid])]
      exact .inl hs.symm

theorem answer_effect (w : SessionWorld) (out : Outcome) (o : SessionOp) :
    Effect w w.now (w.answer out o).2.2 o (w.answer out o).1 := by
  cases o with
  | storeGet =>
    unfold SessionWorld.answer
    cases out.fails with
    | none => exact ⟨rfl, fun _ h => by cases h; rfl⟩
    | some e => exact ⟨rfl, fun _ h => (by cases h)⟩
  | storeSet value => exact rfl
  | newSession => exact ⟨rfl, rfl⟩
  | put s =>
    unfold SessionWorld.answer Effect
    dsimp only
    split
    · exact .inl rfl
    · exact .inr rfl
  | withSession sessionId f =>
    unfold SessionWorld.answer
    dsimp only
    split
    · exact .inl rfl
    · exact withSession_effect
  | lock =>
    unfold SessionWorld.answer
    cases out.fails with
    | none => exact .inr rfl
    | some e => exact .inl rfl

theorem answered {i : Nat} {o : SessionOp} {out : Outcome} {w w' : SessionWorld} {r : o.Ans}
    (h : (swapSys env).respond i o out w = (r, w')) : ∃ e, Answered i o r w w' e := by
  obtain ⟨rfl, rfl⟩ := Prod.mk.inj h
  exact ⟨_, rfl, rfl, rfl, rfl, rfl, rfl, answer_effect { w with now := w.now + out.elapsed } out o⟩

/-! ## What the others do -/

/-- The log grows, and the slot is as it was, empty, or filled by an answer that was logged since. -/
def Moves (w w' : SessionWorld) : Prop :=
  ∃ mid, w'.log = w.log ++ mid ∧
    (w'.session = w.session ∨ w'.session = none ∨
      ∃ opened ∈ mid, ∃ s, opened.ev = ⟨.put s, ()⟩ ∧ w'.session = some s)

theorem Moves.refl (w : SessionWorld) : Moves w w := ⟨[], by simp, .inl rfl⟩

theorem Moves.trans {w w' w'' : SessionWorld} (h : Moves w w') (h' : Moves w' w'') : Moves w w'' := by
  obtain ⟨mid, hlog, hslot⟩ := h
  obtain ⟨mid', hlog', hslot'⟩ := h'
  refine ⟨mid ++ mid', by rw [hlog', hlog, List.append_assoc], ?_⟩
  rcases hslot' with hsame | hnone | ⟨opened, hopened, s, hev, hs⟩
  · rw [hsame]
    rcases hslot with hsame | hnone | ⟨opened, hopened, s, hev, hs⟩
    · exact .inl hsame
    · exact .inr (.inl hnone)
    · exact .inr (.inr ⟨opened, List.mem_append_left _ hopened, s, hev, hs⟩)
  · exact .inr (.inl hnone)
  · exact .inr (.inr ⟨opened, List.mem_append_right _ hopened, s, hev, hs⟩)

theorem Answered.slot {i : Nat} {o : SessionOp} {r : o.Ans} {w w' : SessionWorld} {e : Logged}
    (h : Answered i o r w w' e) :
    w'.session = w.session ∨ w'.session = none ∨ ∃ s, o = .put s ∧ w'.session = some s := by
  have heffect := h.effect
  cases o with
  | storeGet => exact .inl heffect.1
  | storeSet value => exact .inl heffect
  | newSession => exact .inl heffect.1
  | put s => exact heffect.imp id fun hput => .inr ⟨s, rfl, hput⟩
  | withSession sessionId f =>
    cases r with
    | none => exact heffect.imp id fun hnone => .inl hnone.1
    | some x =>
      obtain ⟨s, hs, hleft, _⟩ := heffect
      exact .inl (hleft.trans hs.symm)
  | lock => exact heffect.imp id .inl

theorem Answered.moves {i : Nat} {o : SessionOp} {r : o.Ans} {w w' : SessionWorld} {e : Logged}
    (h : Answered i o r w w' e) : Moves w w' := by
  refine ⟨[e], h.log, ?_⟩
  rcases h.slot with hsame | hnone | ⟨s, rfl, hs⟩
  · exact .inl hsame
  · exact .inr (.inl hnone)
  · exact .inr (.inr ⟨e, List.mem_singleton_self e, s, h.ev, hs⟩)

/-! ## What a task knows -/

/-- Task `i` found the session's slot with its id, and whatever is there now that has another id was opened since. -/
def Since (i : Nat) (sessionId : String) (w : SessionWorld) : Prop :=
  ∃ pre read post, w.log = pre ++ read :: post ∧ read.task = i ∧ ∀ s, w.session = some s →
    s.sessionId = sessionId ∨ ∃ opened ∈ post, opened.ev = ⟨.put s, ()⟩

theorem Since.moves {i : Nat} {sessionId : String} {w w' : SessionWorld} (h : Since i sessionId w) (hm : Moves w w') :
    Since i sessionId w' := by
  obtain ⟨pre, read, post, hlog, hread, hslot⟩ := h
  obtain ⟨mid, hlog', hslot'⟩ := hm
  refine ⟨pre, read, post ++ mid, by simp [hlog', hlog], hread, fun s hs => ?_⟩
  rcases hslot' with hsame | hnone | ⟨opened, hopened, s', hev, hs'⟩
  · rw [hsame] at hs
    rcases hslot s hs with hid | ⟨opened, hopened, hev⟩
    · exact .inl hid
    · exact .inr ⟨opened, List.mem_append_left _ hopened, hev⟩
  · rw [hnone] at hs
    cases hs
  · rw [hs'] at hs
    cases hs
    exact .inr ⟨opened, List.mem_append_right _ hopened, hev⟩

/-- What a task owes when it is answered: it fills the slot only as an unlock, reads and locks only what it may. -/
def Owes (env : Env) (i : Nat) (call : SessionCall) (w w' : SessionWorld) : SessionOp → Prop
  | .put s => UnlockedBy env call i w'.log s
  | .lock => ∀ sessionId, call = .close sessionId → Since i sessionId w
  | .withSession sessionId' _ => ∀ sessionId, call = .close sessionId → sessionId' = sessionId
  | _ => True

def method (env : Env) : Method (swapSys env) .free where
  inv _ := True
  rely _ _ := Moves
  must _ _ _ _ := True
  guar i e o _ w w' := Owes env i e w w' o
  fit _ _ _ := True
  apart _ _ := False
  rely_refl _ _ := Moves.refl
  rely_trans _ _ _ _ _ := Moves.trans
  apart_symm _ _ := id
  restart _ _ := trivial
  enter _ _ _ _ := ⟨trivial, fun _ _ _ => id⟩

theorem goes_call {i : Nat} {call : SessionCall} {o : SessionOp} {k : o.Ans → Prog SessionOp SessionOp.Ans Unit Unit}
    {w : SessionWorld}
    (h : ∀ w₁ r w₂ e, Moves w w₁ → Answered i o r w₁ w₂ e → Owes env i call w₁ w₂ o ∧ (method env).Goes i call (k r) w₂) :
    (method env).Goes i call (.call o k) w := by
  refine safe_call.2 fun w₁ h₁ _ => ⟨trivial, fun w₂ h₂ r w₃ hact => ?_⟩
  obtain ⟨_, ⟨out, hrespond⟩, _⟩ := hact
  obtain ⟨e, he⟩ := answered hrespond
  obtain ⟨howes, hgoes⟩ := h w₂ r w₃ e (h₁.2.trans h₂.2) he
  exact ⟨⟨trivial, fun _ _ _ _ => he.moves, howes⟩, hgoes⟩

theorem goes_end {i : Nat} {call : SessionCall} {p : Prog SessionOp SessionOp.Ans Unit Unit} {w : SessionWorld}
    (h : p = .ret ()) : (method env).Goes i call p w := by
  subst h
  exact safe_ret.2 trivial

theorem Moves.sublist {l : List Logged} {w w' : SessionWorld} (h : Moves w w') (hl : l.Sublist w.log) :
    l.Sublist w'.log := by
  obtain ⟨mid, hlog, _⟩ := h
  rw [hlog]
  exact List.sublist_append_of_sublist_left hl

theorem Answered.sublist {i : Nat} {o : SessionOp} {r : o.Ans} {w w' : SessionWorld} {e : Logged} {l : List Logged}
    (h : Answered i o r w w' e) (hl : l.Sublist w.log) : (l ++ [e]).Sublist w'.log := by
  rw [h.log]
  exact hl.append (.refl _)

theorem vaultsMatch_iff {onDisk supplied : EncryptedVault} : vaultsMatch onDisk supplied = true ↔ onDisk = supplied := by
  cases onDisk
  cases supplied
  simp [vaultsMatch, and_assoc]

/-! ## The bodies -/

/-- What an unlock does once it has decrypted the vault that it found in the store. -/
theorem goes_unlock {i : Nat} {encrypted : EncryptedVault} {password mnemonic : String} {raw : Json} {checked : Logged}
    {w : SessionWorld} (hvault : EncryptedVault.fromValue raw = some encrypted)
    (hdecrypt : env.decryptVault encrypted password = .ok mnemonic) (htask : checked.task = i)
    (hstored : checked.stored = some raw) (hev : checked.ev = ⟨.storeGet, .ok (some raw)⟩)
    (hlog : [checked].Sublist w.log) :
    (method env).Goes i (.unlock encrypted password) (unlock mnemonic).detach w := by
  refine goes_call fun w₁ r w₂ since h₁ hsince => ⟨trivial, ?_⟩
  obtain ⟨sessionId, now⟩ := r
  refine goes_call fun w₃ r w₄ opened h₃ hopened => ⟨?_, goes_end rfl⟩
  have htwo : [checked, since].Sublist w₂.log := hsince.sublist (h₁.sublist hlog)
  have hthree : [checked, since, opened].Sublist w₄.log := hopened.sublist (h₃.sublist htwo)
  have hnow : now = since.now := hsince.effect.2
  refine ⟨encrypted, password, raw, now, checked, since, opened, rfl, hdecrypt, hvault, rfl, hthree, ?_, hstored, hev,
    hnow.symm, hsince.ev, hopened.ev⟩
  simp [htask, hsince.task, hopened.task]

theorem bodies (i : Nat) (call : SessionCall) (w : SessionWorld) : (method env).Goes i call (call.body env) w := by
  cases call with
  | unlock encrypted password =>
    refine goes_call fun w₁ r w₂ checked h₁ hchecked => ⟨trivial, ?_⟩
    cases r with
    | error e => exact goes_end rfl
    | ok value =>
      cases value with
      | none => exact goes_end rfl
      | some raw =>
        dsimp only
        cases hvault : EncryptedVault.fromValue raw with
        | none => exact goes_end rfl
        | some onDisk =>
          dsimp only
          by_cases hmatch : vaultsMatch onDisk encrypted = true
          · obtain rfl := vaultsMatch_iff.1 hmatch
            rw [if_pos hmatch]
            show (method env).Goes i (.unlock onDisk password)
              ((Prog.bind (.ofExcept (env.decryptVault onDisk password)) unlock).detach) w₂
            cases hdecrypt : env.decryptVault onDisk password with
            | error e => exact goes_end rfl
            | ok mnemonic =>
              have hstored : checked.stored = some raw := by
                rw [hchecked.stored]
                exact (hchecked.effect.2 _ rfl).symm
              have hlog : [checked].Sublist w₂.log := by
                rw [hchecked.log]
                exact List.sublist_append_right _ _
              exact goes_unlock hvault hdecrypt hchecked.task hstored hchecked.ev hlog
          · rw [if_neg hmatch]
            exact goes_end rfl
  | lock =>
    refine goes_call fun w₁ r w₂ e h₁ he => ⟨fun _ hcall => (by cases hcall), ?_⟩
    cases r with
    | error e => exact goes_end rfl
    | ok _ => exact goes_end rfl
  | sign sessionId f =>
    refine goes_call fun w₁ r w₂ e h₁ he => ⟨fun _ hcall => (by cases hcall), ?_⟩
    rcases r with _ | _ | _
    · exact goes_end rfl
    · exact goes_end rfl
    · exact goes_end rfl
  | close sessionId =>
    refine goes_call fun w₁ r w₂ read h₁ hread => ⟨fun _ hcall => by cases hcall; rfl, ?_⟩
    rcases r with _ | _ | address
    · exact goes_end rfl
    · exact goes_end rfl
    · have hsince : Since i sessionId w₂ := by
        obtain ⟨s, _, hleft, hid, _⟩ := hread.effect
        refine ⟨w₁.log, read, [], hread.log, hread.task, fun s' hs' => .inl ?_⟩
        rw [hleft] at hs'
        cases hs'
        exact hid
      refine goes_call fun w₃ r w₄ e h₃ he => ⟨fun _ hcall => ?_, ?_⟩
      · cases hcall
        exact hsince.moves h₃
      · cases r with
        | error e => exact goes_end rfl
        | ok _ => exact goes_end rfl
  | storeSet value => exact goes_call fun w₁ r w₂ e h₁ he => ⟨trivial, goes_end rfl⟩

/-! ## Runs -/

theorem holds_reached {stored : Option Json} {now : Nat} {c : SessionCfg}
    (h : Reach (swapSys env) .free (launched stored now) c) : (method env).Holds c :=
  Method.holds_reach (fun i e w _ _ => bodies i e w) (Method.holds_nil trivial) h

theorem after_snoc {log pre : List Logged} {e e' : Logged} (h : After (log ++ [e']) pre e) :
    After log pre e ∨ pre = log ∧ e = e' := by
  obtain ⟨post, hpost⟩ := h
  rcases List.eq_nil_or_concat post with rfl | ⟨post', last, rfl⟩
  · obtain ⟨hpre, hlast⟩ := List.append_inj' hpost rfl
    exact .inr ⟨hpre.symm, (List.singleton_inj.1 hlast).symm⟩
  · rw [List.concat_eq_append, ← List.cons_append, ← List.append_assoc] at hpost
    exact .inl ⟨post', (List.append_inj' hpost rfl).1⟩

theorem UnlockedBy.mono {call : SessionCall} {j : Nat} {log log' : List Logged} {s : UnlockedSession}
    (h : UnlockedBy env call j log s) (hlog : log.Sublist log') : UnlockedBy env call j log' s := by
  obtain ⟨encrypted, password, raw, now, checked, since, opened, hcall, hdecrypt, hvault, htime, hsub, hrest⟩ := h
  exact ⟨encrypted, password, raw, now, checked, since, opened, hcall, hdecrypt, hvault, htime, hsub.trans hlog, hrest⟩

/-- What holds in every state. -/
structure Kept (env : Env) (c : SessionCfg) : Prop where
  logged : ∀ e ∈ c.world.log, ∃ call, c.entryAt e.task = some call
  /-- the session in the slot is an unlock's -/
  unlocked : ∀ s, c.world.session = some s → ∃ j call, c.entryAt j = some call ∧ UnlockedBy env call j c.world.log s
  signs : SignsOwn env c
  /-- a close ends its own session, or one that was opened since its read -/
  closes : ∀ pre e sessionId s, After c.world.log pre e → c.entryAt e.task = some (.close sessionId) →
    e.session = some s → e.left ≠ some s → s.sessionId = sessionId ∨ e.ev.op = .lock ∧ ∃ read opened,
      read.task = e.task ∧ [read, opened].Sublist pre ∧ opened.ev = ⟨.put s, ()⟩

/-- A move that leaves the log and fills no slot. -/
theorem Kept.idle {c c' : SessionCfg} {m : Move Outcome SessionCall} (h : Kept env c)
    (hstep : Step (swapSys env) .free c m c') (hlog : c'.world.log = c.world.log)
    (hslot : c'.world.session = c.world.session ∨ c'.world.session = none) : Kept env c' where
  logged e he := by
    rw [hlog] at he
    obtain ⟨call, hcall⟩ := h.logged e he
    exact ⟨call, hstep.entryAt hcall⟩
  unlocked s hs := by
    rcases hslot with hsame | hnone
    · rw [hsame] at hs
      obtain ⟨j, call, hj, hunlocked⟩ := h.unlocked s hs
      rw [hlog]
      exact ⟨j, call, hstep.entryAt hj, hunlocked⟩
    · rw [hnone] at hs
      cases hs
  signs pre e sessionId f signature hafter hev := by
    rw [hlog] at hafter
    obtain ⟨s, j, call, hs, hid, htime, hsig, hj, hunlocked⟩ := h.signs pre e sessionId f signature hafter hev
    exact ⟨s, j, call, hs, hid, htime, hsig, hstep.entryAt hj, hunlocked⟩
  closes pre e sessionId s hafter hclose := by
    rw [hlog] at hafter
    obtain ⟨post, hpost⟩ := hafter
    obtain ⟨call, hcall⟩ := h.logged e (by rw [hpost]; simp)
    obtain rfl : call = .close sessionId := Option.some.inj ((hstep.entryAt hcall).symm.trans hclose)
    exact h.closes pre e sessionId s ⟨post, hpost⟩ hcall

/-- What an answer that changes the slot says of a task that closes. -/
theorem Answered.closes {i : Nat} {o : SessionOp} {r : o.Ans} {w w' : SessionWorld} {e : Logged} {sessionId : String}
    {s : UnlockedSession} (h : Answered i o r w w' e) (howes : Owes env i (.close sessionId) w w' o)
    (hs : w.session = some s) (hleft : w'.session ≠ some s) :
    s.sessionId = sessionId ∨ o = .lock ∧ ∃ read opened,
      read.task = i ∧ [read, opened].Sublist w.log ∧ opened.ev = ⟨.put s, ()⟩ := by
  have heffect := h.effect
  have hsame : w'.session ≠ w.session := by
    rw [hs]
    exact hleft
  cases o with
  | storeGet => exact absurd heffect.1 hsame
  | storeSet value => exact absurd heffect hsame
  | newSession => exact absurd heffect.1 hsame
  | put s' =>
    obtain ⟨_, _, _, _, _, _, _, hcall, _⟩ : UnlockedBy env (.close sessionId) i w'.log s' := howes
    cases hcall
  | withSession sessionId' f =>
    obtain rfl : sessionId' = sessionId := howes sessionId rfl
    cases r with
    | none =>
      rcases heffect with hsame' | ⟨_, hid⟩
      · exact absurd hsame' hsame
      · exact .inl (hid s hs)
    | some x =>
      obtain ⟨s', hs', hleft', _⟩ := heffect
      exact absurd (hleft'.trans hs'.symm) hsame
  | lock =>
    obtain ⟨pre, read, post, hlog, htask, hslot⟩ := howes sessionId rfl
    rcases hslot s hs with hid | ⟨opened, hopened, hev⟩
    · exact .inl hid
    · refine .inr ⟨rfl, read, opened, htask, ?_, hev⟩
      rw [hlog]
      exact List.sublist_append_of_sublist_right (.cons_cons _ (List.singleton_sublist.2 hopened))

/-- An answer. -/
theorem Kept.answer {c c' : SessionCfg} {m : Move Outcome SessionCall} (h : Kept env c)
    (hstep : Step (swapSys env) .free c m c') {i : Nat} {call : SessionCall} {o : SessionOp} {r : o.Ans} {e : Logged}
    (hi : c.entryAt i = some call) (ha : Answered i o r c.world c'.world e)
    (howes : Owes env i call c.world c'.world o) : Kept env c' where
  logged e' he' := by
    rw [ha.log] at he'
    rcases List.mem_append.1 he' with he' | he'
    · obtain ⟨call', hcall'⟩ := h.logged e' he'
      exact ⟨call', hstep.entryAt hcall'⟩
    · rw [List.mem_singleton.1 he', ha.task]
      exact ⟨call, hstep.entryAt hi⟩
  unlocked s hs := by
    have hgrows : c.world.log.Sublist c'.world.log := by
      rw [ha.log]
      exact List.sublist_append_left _ _
    rcases ha.slot with hsame | hnone | ⟨s', rfl, hput⟩
    · rw [hsame] at hs
      obtain ⟨j, call', hj, hunlocked⟩ := h.unlocked s hs
      exact ⟨j, call', hstep.entryAt hj, hunlocked.mono hgrows⟩
    · rw [hnone] at hs
      cases hs
    · rw [hput] at hs
      cases hs
      exact ⟨i, call, hstep.entryAt hi, howes⟩
  signs pre e' sessionId f signature hafter hev := by
    rw [ha.log] at hafter
    rcases after_snoc hafter with hafter | ⟨rfl, rfl⟩
    · obtain ⟨s, j, call', hs, hid, htime, hsig, hj, hunlocked⟩ := h.signs pre e' sessionId f signature hafter hev
      exact ⟨s, j, call', hs, hid, htime, hsig, hstep.entryAt hj, hunlocked⟩
    · rw [ha.ev] at hev
      cases hev
      obtain ⟨s, hs, _, hid, htime, hsig⟩ := ha.effect
      obtain ⟨j, call', hj, hunlocked⟩ := h.unlocked s hs
      exact ⟨s, j, call', ha.session.trans hs, hid, htime, hsig.symm, hstep.entryAt hj, hunlocked⟩
  closes pre e' sessionId s hafter hclose hs hleft := by
    rw [ha.log] at hafter
    rcases after_snoc hafter with hafter | ⟨rfl, rfl⟩
    · obtain ⟨post, hpost⟩ := hafter
      obtain ⟨call', hcall'⟩ := h.logged e' (by rw [hpost]; simp)
      obtain rfl : call' = .close sessionId := Option.some.inj ((hstep.entryAt hcall').symm.trans hclose)
      exact h.closes pre e' sessionId s ⟨post, hpost⟩ hcall' hs hleft
    · rw [ha.task] at hclose
      obtain rfl : call = .close sessionId := Option.some.inj ((hstep.entryAt hi).symm.trans hclose)
      rw [ha.session] at hs
      rw [ha.left] at hleft
      rw [ha.ev, ha.task]
      exact ha.closes howes hs hleft

theorem kept_launched (stored : Option Json) (now : Nat) : Kept env (launched stored now) where
  logged e he := by cases he
  unlocked s hs := by cases hs
  signs pre e _ _ _ hafter _ := by
    obtain ⟨post, hpost⟩ := hafter
    exact absurd hpost.symm (List.append_ne_nil_of_right_ne_nil _ (List.cons_ne_nil _ _))
  closes pre e _ _ hafter := by
    obtain ⟨post, hpost⟩ := hafter
    exact absurd hpost.symm (List.append_ne_nil_of_right_ne_nil _ (List.cons_ne_nil _ _))

/-- What every run keeps. -/
theorem kept_reached {stored : Option Json} {now : Nat} {c : SessionCfg}
    (h : Reach (swapSys env) .free (launched stored now) c) : Kept env c := by
  induction h with
  | refl => exact kept_launched stored now
  | @step c' c'' m hreach hstep ih =>
    cases hstep with
    | start hl => exact ih.idle (.start hl) rfl (.inl rfl)
    | ask ht hl => exact ih.idle (.ask ht hl) rfl (.inl rfl)
    | @answer i out call o k r w ht hr hl hent =>
      obtain ⟨e, he⟩ := answered hr
      have howes := Method.guar_of_answer (holds_reached hreach) ht hr hl
      exact ih.answer (.answer ht hr hl hent) (entryAt_of_task ht) he howes
    | crash => exact ih.idle .crash rfl (.inr rfl)

/-- Every signature is one of an unlock of the stored vault, and a `closeSendSession` that locks before another
session is opened ends no other one. -/
theorem session_signs_own {stored : Option Json} {now : Nat} {c : SessionCfg}
    (h : Reach (swapSys env) .free (launched stored now) c) : SignsOwn env c ∧ (Orderly c → ClosesOwn c) := by
  have hkept := kept_reached h
  refine ⟨hkept.signs, fun horderly pre e sessionId s hafter hclose hs hleft => ?_⟩
  rcases hkept.closes pre e sessionId s hafter hclose hs hleft with hid | ⟨hlock, read, opened, htask, hsub, hev⟩
  · exact hid
  · exact horderly pre e sessionId s read opened hafter hclose hlock htask hsub hev

/-! ## Two runs -/

def sampleEnv : Env where
  decryptVault _ password := if password = "pw" then .ok "abandon about" else .error "wrong password"
  notAVault _ := "invalid type"
  suiAddress _ := .ok "0x5"

def sampleVault : EncryptedVault := { salt := "s", iv := "i", ciphertext := "c" }

def sampleStored : Json := .obj [("salt", .str "s"), ("iv", .str "i"), ("ciphertext", .str "c")]

def fulfilled (id : String) : Outcome := { elapsed := 1, fails := none, id }

/-- Task `i`, which is an unlock, opens the session with the id. -/
def opens (i : Nat) (id : String) : List (Move Outcome SessionCall) :=
  .start (.unlock sampleVault "pw") :: turns i [fulfilled id, fulfilled id, fulfilled id]

def signing : List (Move Outcome SessionCall) :=
  opens 0 "a" ++ .start (.sign "a" fun mnemonic => .ok mnemonic) :: turns 1 [fulfilled ""]

theorem session_signs_own_signing :
    SignsOwn sampleEnv ((swapSys sampleEnv).play (launched sampleStored 0) signing) ∧
      (Orderly ((swapSys sampleEnv).play (launched sampleStored 0) signing) →
        ClosesOwn ((swapSys sampleEnv).play (launched sampleStored 0) signing)) :=
  session_signs_own (reach_play (permitsAll_free _ _ _))

/-- A send reads its session, a swap opens one, and the send locks. -/
def overtaken : List (Move Outcome SessionCall) :=
  opens 0 "a" ++ .start (.close "a") :: turns 1 [fulfilled ""] ++ opens 2 "b" ++ turns 1 [fulfilled ""]

/-- A close can end the session of the swap that unlocked after its read. -/
theorem not_always_own : ¬ ∀ (env : Env) (stored : Option Json) (now : Nat) (c : SessionCfg),
    Reach (swapSys env) .free (launched stored now) c → SignsOwn env c ∧ ClosesOwn c := by
  intro h
  obtain ⟨_, hcloses⟩ := h sampleEnv sampleStored 0 _ (reach_play (permitsAll_free _ _ overtaken))
  have hne : ((swapSys sampleEnv).play (launched sampleStored 0) overtaken).world.log ≠ [] := fun hnil => by cases hnil
  have hid := hcloses _ _ "a" { mnemonic := "abandon about", sessionId := "b", expiresAt := 6 + fromSecs SESSION_TTL_SECS }
    ⟨[], (List.dropLast_concat_getLast hne).symm⟩ rfl rfl (fun hleft => (by cases hleft))
  exact absurd hid (by decide)

end SwapSession
