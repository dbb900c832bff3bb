import PwndaWallet.Sidecar.Pipe

/-!
# What a call may take from the pipe

`framed_iff`: over every run, the calls are framed if and only if every response line that was read
is JSON. An exit that meets a line which is not JSON keeps the child.
-/

namespace Sidecar

open Rust Tasks

def Event.child : Event → Nat
  | .spawned g => g
  | .wrote g _ => g
  | .read g _ => g

/-- The errors after which the pipe cannot be used again. -/
def SidecarError.Desynced : SidecarError → Prop
  | .timeout _ _ => True
  | .framing _ _ => True
  | .sidecarDied _ _ => True
  | _ => False

/-! ## What is owed -/

/-- What one call owes. -/
structure Sound (sd : Serde) (before : Pipe) (out : Outcome) : Prop where
  /-- a value is the `result` field (null if there is none) of a line of the child that the request
  was written to, and that line has the id of the request -/
  answers : ∀ v, out.result = .ok v → ∃ g id line resp, .wrote g id ∈ out.events ∧
    .read g line ∈ out.events ∧ sd.fromStr (trimEnd line) = .ok resp ∧ respId resp = some id ∧
    v = (resp.get "result").getD .null
  /-- a rejection leaves the child that it came from, and it is the one there was -/
  keeps : ∀ m t s, out.result = .error (.engineRejected m t s) → ∃ inner, out.pipe.inner = some inner ∧
    (∃ id, .wrote inner.child id ∈ out.events) ∧
    ∀ old, before.inner = some old → old.child = inner.child ∧ ∀ g, .spawned g ∉ out.events
  severs : ∀ e, out.result = .error e → e.Desynced → out.pipe.inner = none

/-- What all calls of a run owe, in the order in which they ended. -/
structure Framed (sd : Serde) (log : List Done) : Prop where
  each : ∀ c ∈ log, Sound sd c.before c.outcome
  /-- a call that began after a config fault was recorded fails, and starts no child -/
  faulted : ∀ c ∈ log, ∀ a ∈ log.take c.began, ∀ msg, a.outcome.pipe.permanentFault = some msg →
    (∃ m, c.outcome.result = .error (.configFault m)) ∧ ∀ g, .spawned g ∉ c.outcome.events
  /-- after a call that left the pipe out of step, every child is a new one -/
  fresh : log.Pairwise fun a c => ∀ e, a.outcome.result = .error e → e.Desynced →
    ∀ ev ∈ c.outcome.events, a.outcome.pipe.spawned ≤ ev.child

/-- The child that a round trip is held with, if there is one or one can be started. -/
def Pipe.peer (p : Pipe) (o : Outside) : Option Inner :=
  match p.inner with
  | some inner => some inner
  | none => if o.badConfig = none ∧ o.spawn = none then some ⟨p.spawned, 0, []⟩ else none

/-- The response line that comes, if one does. -/
def responseLine (inner : Inner) (o : Outside) : Option String :=
  match o.write.or o.flush with
  | some _ => none
  | none =>
    match readLine inner o with
    | .line text _ => if text = "" then none else some text
    | _ => none

/-- The request can be written as JSON, and the line that comes for it can be read as JSON. -/
def Clean (sd : Serde) (p : Pipe) (req : Request) (o : Outside) : Prop :=
  ∀ inner, p.peer o = some inner →
    (sd.toString (requestJson (inner.nextId + 1) req)).isOk = true ∧
    ∀ line, responseLine inner o = some line → (sd.fromStr (trimEnd line)).isOk = true

def Done.Clean (sd : Serde) (c : Done) : Prop := ∀ o, c.outside = some o → Sidecar.Clean sd c.before c.req o

/-! ## One round trip -/

section
variable {sd : Serde} {before p : Pipe} {req : Request} {o : Outside} {inner : Inner}
  {events : List Event}

/-- An error that says nothing of the pipe owes nothing. -/
theorem sound_error {e : SidecarError} {out : Outcome} (hr : out.result = .error e)
    (hrej : ∀ m t s, e ≠ .engineRejected m t s) (hsev : e.Desynced → out.pipe.inner = none) :
    Sound sd before out where
  answers v hv := by rw [hr] at hv; cases hv
  keeps m t s h := by
    rw [hr] at h
    exact absurd (Except.error.inj h) (hrej m t s)
  severs e' h hd := by
    rw [hr] at h
    obtain rfl := Except.error.inj h
    exact hsev hd

theorem classifyDeath_sound (io : Option String) :
    Sound sd before (classifyDeath p req o io events) := by
  unfold classifyDeath
  split
  · exact sound_error rfl (fun m t s h => nomatch h) fun h => False.elim h
  · exact sound_error rfl (fun m t s h => nomatch h) fun _ => rfl

/-- A response that echoes the id is what the call was answered. -/
theorem answer_sound {resp : Json} {text : String} (hresp : sd.fromStr (trimEnd text) = .ok resp)
    (hid : respId resp = some inner.nextId)
    (hwrote : .wrote inner.child inner.nextId ∈ events) (hread : .read inner.child text ∈ events)
    (hold : ∀ old, before.inner = some old → old.child = inner.child ∧ ∀ g, .spawned g ∉ events) :
    Sound sd before ⟨answer req resp, { p with inner := some inner }, events⟩ where
  answers v hv := by
    refine ⟨inner.child, inner.nextId, text, resp, hwrote, hread, hresp, hid, ?_⟩
    simp only [answer] at hv
    split at hv
    · exact (Except.ok.inj hv).symm
    · cases hv
  keeps m t s _ := ⟨inner, rfl, ⟨inner.nextId, hwrote⟩, hold⟩
  severs e he hd := by
    simp only [answer] at he
    split at he
    · cases he
    · obtain rfl := Except.error.inj he
      exact False.elim hd

theorem judge_sound_iff {text : String}
    (hwrote : .wrote inner.child inner.nextId ∈ events) (hread : .read inner.child text ∈ events)
    (hold : ∀ old, before.inner = some old → old.child = inner.child ∧ ∀ g, .spawned g ∉ events) :
    Sound sd before (judge sd p req inner text events) ↔ (sd.fromStr (trimEnd text)).isOk = true := by
  unfold judge
  cases hresp : sd.fromStr (trimEnd text) with
  | error e =>
    -- the child stays in its slot here
    constructor
    · intro h
      have hs := h.severs _ rfl trivial
      cases hs
    · intro h
      cases h
  | ok resp =>
    refine ⟨fun _ => rfl, fun _ => ?_⟩
    by_cases hid : respId resp = some inner.nextId
    · simp only [hid, if_true]
      exact answer_sound hresp hid hwrote hread hold
    · simp only [hid, if_false]
      exact sound_error rfl (fun m t s h => nomatch h) fun _ => rfl

theorem exchange_sound_iff {timeout : Nat}
    (hold : ∀ old, before.inner = some old → old.child = inner.child ∧ ∀ g, .spawned g ∉ events) :
    Sound sd before (exchange sd p req timeout o inner events) ↔
      ∀ line, responseLine inner o = some line → (sd.fromStr (trimEnd line)).isOk = true := by
  unfold exchange responseLine
  cases o.write.or o.flush with
  | some e => exact ⟨(fun _ line h => nomatch h), fun _ => classifyDeath_sound _⟩
  | none =>
    dsimp only
    cases readLine inner o with
    | elapsed =>
      exact ⟨(fun _ line h => nomatch h),
        fun _ => sound_error rfl (fun m t s h => nomatch h) fun _ => rfl⟩
    | failed e => exact ⟨(fun _ line h => nomatch h), fun _ => classifyDeath_sound _⟩
    | line text rest =>
      dsimp only
      by_cases ht : text = ""
      · simp only [ht, if_true]
        exact ⟨(fun _ line h => nomatch h), fun _ => classifyDeath_sound _⟩
      · simp only [ht, if_false, Option.some.injEq, forall_eq']
        refine judge_sound_iff (by simp) (by simp) fun old h => ?_
        obtain ⟨hchild, hno⟩ := hold old h
        exact ⟨hchild, fun g => by simp [hno g]⟩

end

theorem ensureSpawned_cases (p : Pipe) (o : Outside) :
    (p.peer o = none ∧ p.inner = none ∧
      ∃ e, ensureSpawned p o = .error e ∧ ¬ e.Desynced ∧ ∀ m t s, e ≠ .engineRejected m t s) ∨
    (∃ inner, p.inner = some inner ∧ p.peer o = some inner ∧ ensureSpawned p o = .ok (inner, p, [])) ∨
    (p.inner = none ∧ p.peer o = some ⟨p.spawned, 0, []⟩ ∧ ensureSpawned p o =
      .ok (⟨p.spawned, 0, []⟩, { p with inner := some ⟨p.spawned, 0, []⟩, spawned := p.spawned + 1 },
        [.spawned p.spawned])) := by
  unfold ensureSpawned Pipe.peer spawn
  cases hp : p.inner with
  | some inner => exact .inr (.inl ⟨inner, rfl, rfl, rfl⟩)
  | none =>
    cases hb : o.badConfig with
    | some e => exact .inl ⟨by simp, rfl, _, rfl, id, fun m t s h => nomatch h⟩
    | none =>
      cases hs : o.spawn with
      | some e => exact .inl ⟨by simp, rfl, _, rfl, id, fun m t s h => nomatch h⟩
      | none => exact .inr (.inr ⟨rfl, by simp, rfl⟩)

/-- A round trip does what it owes if and only if what it meets is JSON. -/
theorem roundTrip_sound_iff (sd : Serde) (p : Pipe) (req : Request) (timeout : Nat) (o : Outside) :
    Sound sd p (roundTripLocked sd p req timeout o) ↔ Clean sd p req o := by
  have go : ∀ (inner : Inner) (q : Pipe) (events : List Event), p.peer o = some inner →
      ensureSpawned p o = .ok (inner, q, events) →
      (∀ old, p.inner = some old → old.child = inner.child ∧ ∀ g, .spawned g ∉ events) →
      (Sound sd p (roundTripLocked sd p req timeout o) ↔ Clean sd p req o) := by
    intro inner q events hpeer hspawn hold
    simp only [roundTripLocked, hspawn, Clean, hpeer, Option.some.injEq, forall_eq']
    cases sd.toString (requestJson (inner.nextId + 1) req) with
    | error e =>
      constructor
      · intro h
        have hs := h.severs _ rfl trivial
        cases hs
      · intro h
        cases h.1
    | ok text =>
      simp only [Except.isOk, Except.toBool, true_and]
      exact exchange_sound_iff hold
  rcases ensureSpawned_cases p o with ⟨hpeer, hnone, e, he, hd, hrej⟩ | ⟨inner, hp, hpeer, hspawn⟩ |
    ⟨hp, hpeer, hspawn⟩
  · simp only [roundTripLocked, he, Clean, hpeer]
    exact ⟨(fun _ inner h => nomatch h), fun _ => sound_error rfl hrej fun h => absurd h hd⟩
  · refine go inner p [] hpeer hspawn fun old h => ?_
    obtain rfl := Option.some.inj (hp.symm.trans h)
    exact ⟨rfl, fun g h => nomatch h⟩
  · exact go _ _ _ hpeer hspawn fun old h => by rw [hp] at h; cases h

/-! ## The children of a run -/

/-- Child `g` is the one that `p` has, or one to come. -/
def Pipe.Next (p : Pipe) (g : Nat) : Prop := (∃ inner, p.inner = some inner ∧ g = inner.child) ∨ p.spawned ≤ g

/-- `out` has only to do with the child that `q` has, and with `events`. -/
structure Stays (q : Pipe) (g : Nat) (events : List Event) (out : Outcome) : Prop where
  fault : q.permanentFault.isSome = true → out.pipe.permanentFault.isSome = true
  spawned : out.pipe.spawned = q.spawned
  inner : ∀ inner, out.pipe.inner = some inner → inner.child = g
  events : ∀ ev ∈ out.events, ev ∈ events ∨ ev.child = g

section
variable {sd : Serde} {q : Pipe} {req : Request} {o : Outside} {g : Nat} {evs events : List Event}

theorem classifyDeath_stays (io : Option String) (hev : ∀ ev ∈ events, ev ∈ evs ∨ ev.child = g) :
    Stays q g evs (classifyDeath q req o io events) := by
  unfold classifyDeath
  split
  · exact ⟨fun _ => rfl, rfl, (fun inner h => nomatch h), hev⟩
  · exact ⟨id, rfl, (fun inner h => nomatch h), hev⟩

theorem judge_stays {inner : Inner} (hg : inner.child = g) (text : String)
    (hev : ∀ ev ∈ events, ev ∈ evs ∨ ev.child = g) :
    Stays q g evs (judge sd q req inner text events) := by
  have hkeep : ∀ r, Stays q g evs ⟨r, { q with inner := some inner }, events⟩ := fun r =>
    ⟨id, rfl, fun i h => by obtain rfl := Option.some.inj h; exact hg, hev⟩
  unfold judge
  split
  · exact hkeep _
  · split
    · exact hkeep _
    · exact ⟨id, rfl, (fun inner h => nomatch h), hev⟩

theorem exchange_stays {inner : Inner} (hg : inner.child = g) (timeout : Nat) :
    Stays q g events (exchange sd q req timeout o inner events) := by
  have hev : ∀ ev ∈ events ++ [.wrote inner.child inner.nextId], ev ∈ events ∨ ev.child = g := by
    intro ev h
    rcases List.mem_append.1 h with h | h
    · exact .inl h
    · obtain rfl := List.mem_singleton.1 h
      exact .inr hg
  unfold exchange
  dsimp only
  split
  · exact classifyDeath_stays _ hev
  · split
    · exact ⟨id, rfl, (fun inner h => nomatch h), hev⟩
    · exact classifyDeath_stays _ hev
    · split
      · exact classifyDeath_stays _ hev
      · refine judge_stays (by exact hg) _ fun ev h => ?_
        rcases List.mem_append.1 h with h | h
        · exact hev ev h
        · obtain rfl := List.mem_singleton.1 h
          exact .inr hg

end

/-- `out` goes on from `p`. -/
structure Follows (p : Pipe) (out : Outcome) : Prop where
  fault : p.permanentFault.isSome = true → out.pipe.permanentFault.isSome = true
  spawned : p.spawned ≤ out.pipe.spawned
  inner : ∀ inner, out.pipe.inner = some inner → p.Next inner.child
  owned : (∀ inner, p.inner = some inner → inner.child < p.spawned) →
    ∀ inner, out.pipe.inner = some inner → inner.child < out.pipe.spawned
  events : ∀ ev ∈ out.events, p.Next ev.child

theorem follows_self (p : Pipe) (r : Except SidecarError Json) : Follows p ⟨r, p, []⟩ where
  fault := id
  spawned := Nat.le_refl _
  inner inner h := .inl ⟨inner, h, rfl⟩
  owned h := h
  events _ h := nomatch h

theorem roundTrip_follows (sd : Serde) (p : Pipe) (req : Request) (timeout : Nat) (o : Outside) :
    Follows p (roundTripLocked sd p req timeout o) := by
  have go : ∀ (inner : Inner) (q : Pipe) (events : List Event),
      ensureSpawned p o = .ok (inner, q, events) → q.permanentFault = p.permanentFault →
      Stays q inner.child events (roundTripLocked sd p req timeout o) := by
    intro inner q events hspawn hf
    simp only [roundTripLocked, hspawn]
    split
    · exact ⟨id, rfl, fun i h => by obtain rfl := Option.some.inj h; rfl, fun ev h => .inl h⟩
    · exact exchange_stays (by exact rfl) timeout
  rcases ensureSpawned_cases p o with ⟨_, _, e, he, _⟩ | ⟨inner, hp, _, hspawn⟩ | ⟨hp, _, hspawn⟩
  · simp only [roundTripLocked, he]
    exact follows_self p _
  · have hs := go inner p [] hspawn rfl
    have hnext : p.Next inner.child := .inl ⟨inner, hp, rfl⟩
    refine ⟨hs.fault, Nat.le_of_eq hs.spawned.symm, fun i hi => ?_, fun hown i hi => ?_, fun ev hev => ?_⟩
    · rw [hs.inner i hi]
      exact hnext
    · rw [hs.inner i hi, hs.spawned]
      exact hown inner hp
    · rcases hs.events ev hev with h | h
      · cases h
      · rw [h]
        exact hnext
  · have hs := go _ _ _ hspawn rfl
    have hnext : p.Next p.spawned := .inr (Nat.le_refl _)
    have hcount : (roundTripLocked sd p req timeout o).pipe.spawned = p.spawned + 1 := hs.spawned
    refine ⟨hs.fault, by omega, fun i hi => ?_, fun _ i hi => ?_, fun ev hev => ?_⟩
    · rw [hs.inner i hi]
      exact hnext
    · have hchild : i.child = p.spawned := hs.inner i hi
      omega
    · rcases hs.events ev hev with h | h
      · obtain rfl := List.mem_singleton.1 h
        exact hnext
      · rw [h]
        exact hnext

/-- A call that has ended, as the code ends calls. -/
def Done.Made (sd : Serde) (c : Done) : Prop :=
  match c.outside with
  | some o => ∃ timeout, c.outcome = roundTripLocked sd c.before c.req timeout o
  | none => ∃ e, c.outcome = ⟨.error e, c.before, []⟩ ∧ ¬ e.Desynced ∧ ∀ m t s, e ≠ .engineRejected m t s

theorem Done.Made.follows {sd : Serde} {c : Done} (h : c.Made sd) : Follows c.before c.outcome := by
  unfold Done.Made at h
  split at h
  · obtain ⟨timeout, h⟩ := h
    rw [h]
    exact roundTrip_follows sd c.before c.req timeout _
  · obtain ⟨e, h, _⟩ := h
    rw [h]
    exact follows_self c.before _

theorem Done.Made.sound_iff {sd : Serde} {c : Done} (h : c.Made sd) :
    Sound sd c.before c.outcome ↔ c.Clean sd := by
  unfold Done.Made at h
  unfold Done.Clean
  cases ho : c.outside with
  | some o =>
    simp only [ho] at h
    obtain ⟨timeout, h⟩ := h
    rw [h]
    simp only [Option.some.injEq, forall_eq']
    exact roundTrip_sound_iff sd c.before c.req timeout o
  | none =>
    simp only [ho] at h
    obtain ⟨e, h, hd, hrej⟩ := h
    rw [h]
    exact ⟨(fun _ o h => nomatch h), fun _ => sound_error rfl hrej fun h => absurd h hd⟩

/-! ## Runs -/

/-- What holds between two calls of a run. -/
structure Inv (sd : Serde) (d : Desk) : Prop where
  made : ∀ c ∈ d.done, c.Made sd
  owned : ∀ inner, d.pipe.inner = some inner → inner.child < d.pipe.spawned
  counted : ∀ c ∈ d.done, c.outcome.pipe.spawned ≤ d.pipe.spawned
  fault : ∀ c ∈ d.done, c.outcome.pipe.permanentFault.isSome = true → d.pipe.permanentFault.isSome = true
  pending : ∀ c ∈ d.pending, c.began ≤ d.done.length ∧
    ∀ a ∈ d.done.take c.began, a.outcome.pipe.permanentFault = none
  began : ∀ c ∈ d.done, c.began ≤ d.done.length
  faulted : ∀ c ∈ d.done, ∀ a ∈ d.done.take c.began, ∀ msg, a.outcome.pipe.permanentFault = some msg →
    (∃ m, c.outcome.result = .error (.configFault m)) ∧ ∀ g, .spawned g ∉ c.outcome.events
  /-- a call that severed the pipe left no child -/
  parted : (∀ c ∈ d.done, Sound sd c.before c.outcome) → ∀ c ∈ d.done, ∀ e,
    c.outcome.result = .error e → e.Desynced →
    ∀ inner, d.pipe.inner = some inner → c.outcome.pipe.spawned ≤ inner.child
  fresh : (∀ c ∈ d.done, Sound sd c.before c.outcome) → d.done.Pairwise fun a c => ∀ e,
    a.outcome.result = .error e → e.Desynced → ∀ ev ∈ c.outcome.events, a.outcome.pipe.spawned ≤ ev.child

theorem inv_init (sd : Serde) : Inv sd .init where
  made _ h := nomatch h
  owned _ h := nomatch h
  counted _ h := nomatch h
  fault _ h := nomatch h
  pending _ h := nomatch h
  began _ h := nomatch h
  faulted _ h := nomatch h
  parted _ _ h := nomatch h
  fresh _ := .nil

/-- What a call knows of the faults that were recorded before it began. -/
def Knows (d : Desk) (began : Nat) (out : Outcome) : Prop :=
  began ≤ d.done.length ∧ ∀ a ∈ d.done.take began, ∀ msg, a.outcome.pipe.permanentFault = some msg →
    (∃ m, out.result = .error (.configFault m)) ∧ ∀ g, .spawned g ∉ out.events

/-- The calls that had ended when a call began are the same ones later. -/
theorem take_snoc {α : Type} {l : List α} {a : α} {n : Nat} (h : n ≤ l.length) :
    (l ++ [a]).take n = l.take n := List.take_append_of_le_length h

/-- What the end of a call preserves. -/
theorem inv_finish {sd : Serde} {d : Desk} {req : Request} {began : Nat} {o : Option Outside}
    {out : Outcome} (h : Inv sd d) (hm : Done.Made sd ⟨req, began, d.pipe, o, out⟩)
    (hk : Knows d began out) : Inv sd (d.finish req began o out) := by
  have hf : Follows d.pipe out := hm.follows
  have old : ∀ c, c ∈ d.done ++ [⟨req, began, d.pipe, o, out⟩] →
      c ∈ d.done ∨ c = ⟨req, began, d.pipe, o, out⟩ := fun c hc => by simpa using hc
  have hlen : (d.finish req began o out).done.length = d.done.length + 1 := by simp [Desk.finish]
  refine ⟨fun c hc => ?_, hf.owned h.owned, fun c hc => ?_, fun c hc hs => ?_, fun c hc => ?_,
    fun c hc => ?_, fun c hc a ha msg hmsg => ?_, fun hall c hc e he hd inner hi => ?_, fun hall => ?_⟩
  · rcases old c hc with hc | rfl
    · exact h.made c hc
    · exact hm
  · rcases old c hc with hc | rfl
    · exact Nat.le_trans (h.counted c hc) hf.spawned
    · exact Nat.le_refl _
  · rcases old c hc with hc | rfl
    · exact hf.fault (h.fault c hc hs)
    · exact hs
  · obtain ⟨hb, ha⟩ := h.pending c hc
    refine ⟨by omega, ?_⟩
    simpa only [Desk.finish, take_snoc hb] using ha
  · rcases old c hc with hc | rfl
    · have := h.began c hc
      omega
    · have := hk.1
      dsimp only
      omega
  · rcases old c hc with hc | rfl
    · simp only [Desk.finish, take_snoc (h.began c hc)] at ha
      exact h.faulted c hc a ha msg hmsg
    · simp only [Desk.finish, take_snoc hk.1] at ha
      exact hk.2 a ha msg hmsg
  · have hall' : ∀ c ∈ d.done, Sound sd c.before c.outcome := fun c hc =>
      hall c (List.mem_append_left _ hc)
    rcases old c hc with hc | rfl
    · rcases hf.inner inner hi with ⟨i, hdi, hci⟩ | hge
      · rw [hci]
        exact h.parted hall' c hc e he hd i hdi
      · exact Nat.le_trans (h.counted c hc) hge
    · have hnone : out.pipe.inner = none := (hall _ (List.mem_append_right _ (by simp))).severs e he hd
      have hi : out.pipe.inner = some inner := hi
      rw [hnone] at hi
      cases hi
  · have hall' : ∀ c ∈ d.done, Sound sd c.before c.outcome := fun c hc =>
      hall c (List.mem_append_left _ hc)
    refine List.pairwise_append.2 ⟨h.fresh hall', List.pairwise_singleton _ _, fun a ha c hc => ?_⟩
    obtain rfl := List.mem_singleton.1 hc
    intro e he hd ev hev
    rcases hf.events ev hev with ⟨i, hdi, hci⟩ | hge
    · rw [hci]
      exact h.parted hall' a ha e he hd i hdi
    · exact Nat.le_trans (h.counted a ha) hge

/-- What a call that leaves the pipe alone preserves. -/
theorem inv_refuse {sd : Serde} {d : Desk} {req : Request} {began : Nat} {e : SidecarError}
    (h : Inv sd d) (hd : ¬ e.Desynced) (hrej : ∀ m t s, e ≠ .engineRejected m t s)
    (hk : Knows d began ⟨.error e, d.pipe, []⟩) : Inv sd (d.refuse req began e) :=
  inv_finish h ⟨e, rfl, hd, hrej⟩ hk

/-- A call that begins without a fault on record. -/
theorem knows_none {sd : Serde} {d : Desk} (h : Inv sd d) (hf : d.pipe.permanentFault = none)
    (out : Outcome) : Knows d d.done.length out := by
  refine ⟨Nat.le_refl _, fun a ha msg hmsg => ?_⟩
  have hsome := h.fault a (List.mem_of_mem_take ha) (by simp [hmsg])
  simp [hf] at hsome

/-- A call that begins with one. -/
theorem knows_fault (d : Desk) (msg : String) :
    Knows d d.done.length ⟨.error (.configFault msg), d.pipe, []⟩ :=
  ⟨Nat.le_refl _, fun _ _ _ _ => ⟨⟨msg, rfl⟩, fun _ h => nomatch h⟩⟩

/-- A call that leaves the queue. -/
theorem inv_erase {sd : Serde} {d : Desk} (h : Inv sd d) (i : Nat) :
    Inv sd { d with pending := d.pending.eraseIdx i } :=
  { h with pending := fun c hc => h.pending c (List.mem_of_mem_eraseIdx hc) }

/-- No call that waited began after a fault was recorded. -/
theorem knows_pending {sd : Serde} {d : Desk} (h : Inv sd d) {c : Pending} (hc : c ∈ d.pending)
    (out : Outcome) : Knows d c.began out := by
  obtain ⟨hb, ha⟩ := h.pending c hc
  refine ⟨hb, fun a hmem msg hmsg => ?_⟩
  rw [ha a hmem] at hmsg
  cases hmsg

/-- What one move preserves. -/
theorem inv_step {sd : Serde} {d d' : Desk} {m : Move} (h : Inv sd d) (hs : Desk.step sd d m = some d') :
    Inv sd d' := by
  cases m with
  | call req =>
    obtain rfl := Option.some.inj hs
    unfold Desk.callWithTimeout
    cases hf : d.pipe.permanentFault with
    | some msg => exact inv_refuse h id (fun m t s h => nomatch h) (knows_fault d msg)
    | none =>
      refine { h with pending := fun c hc => ?_ }
      rcases List.mem_append.1 hc with hc | hc
      · exact h.pending c hc
      · obtain rfl := List.mem_singleton.1 hc
        refine ⟨Nat.le_refl _, fun a ha => ?_⟩
        have hmono := h.fault a (List.mem_of_mem_take ha)
        cases hfa : a.outcome.pipe.permanentFault with
        | none => rfl
        | some msg => simp [hfa, hf] at hmono
  | acquired i waited o =>
    obtain ⟨c, hc, hs⟩ := Option.bind_eq_some_iff.1 hs
    obtain rfl := Option.some.inj hs
    exact inv_finish (inv_erase h i) ⟨_, rfl⟩ (knows_pending h (List.mem_of_getElem? hc) _)
  | starved i =>
    obtain ⟨c, hc, hs⟩ := Option.bind_eq_some_iff.1 hs
    obtain rfl := Option.some.inj hs
    exact inv_refuse (inv_erase h i) id (fun m t s h => nomatch h)
      (knows_pending h (List.mem_of_getElem? hc) _)
  | watch req held o =>
    obtain rfl := Option.some.inj hs
    unfold Desk.callWatch
    cases hf : d.pipe.permanentFault with
    | some msg => exact inv_refuse h id (fun m t s h => nomatch h) (knows_fault d msg)
    | none =>
      dsimp only
      split
      · exact inv_refuse h id (fun m t s h => nomatch h) (knows_none h hf _)
      · exact inv_finish h ⟨_, rfl⟩ (knows_none h hf _)
  | shutdown =>
    obtain rfl := Option.some.inj hs
    exact { h with owned := (fun _ h => nomatch h), parted := (fun _ _ _ _ _ _ _ h => nomatch h) }

theorem inv_reach {sd : Serde} {d : Desk} (h : (machine sd).Reach .init d) : Inv sd d :=
  h.inv (inv_init sd) fun _ _ _ hinv _ hs => inv_step hinv hs

/-- Over every run, the calls are framed if and only if every request was written as JSON and every
response line that was read is JSON. -/
theorem framed_iff {sd : Serde} {d : Desk} (h : (machine sd).Reach .init d) :
    Framed sd d.done ↔ ∀ c ∈ d.done, c.Clean sd := by
  have hinv := inv_reach h
  have hsound : ∀ c ∈ d.done, (Sound sd c.before c.outcome ↔ c.Clean sd) := fun c hc =>
    (hinv.made c hc).sound_iff
  constructor
  · intro hf c hc
    exact (hsound c hc).1 (hf.each c hc)
  · intro hall
    have heach : ∀ c ∈ d.done, Sound sd c.before c.outcome := fun c hc => (hsound c hc).2 (hall c hc)
    exact ⟨heach, hinv.faulted, hinv.fresh heach⟩

/-- JSON text, as far as the runs below need it. -/
def sampleSerde : Serde where
  fromStr s :=
    if s = "\x7b\"id\":1,\"ok\":true\x7d" then .ok (.obj [("id", .int 1), ("ok", .bool true)])
    else .error "expected value at line 1 column 1"
  toString _ := .ok "\x7b\"id\":1,\"method\":\"ping\",\"params\":null\x7d"

/-- The child writes `bytes`, and nothing else happens. -/
def replying (bytes : List UInt8) : Outside := ⟨none, none, none, none, bytes, false, none, none, none⟩

def ping : Request := ⟨"ping", .null, 30000⟩

/-- One call, while the child writes `bytes`. -/
def pinged (bytes : List UInt8) : Desk :=
  Desk.init.finish ping 0 (some (replying bytes))
    (roundTripLocked sampleSerde ⟨none, none, 0⟩ ping 30000 (replying bytes))

theorem reach_pinged (bytes : List UInt8) : (machine sampleSerde).Reach .init (pinged bytes) :=
  have hplay : (machine sampleSerde).play .init [.call ping, .acquired 0 0 (replying bytes)] =
      some (pinged bytes) := rfl
  Machine.reach_play hplay

/-- `{"id":1,"ok":true}` and a newline -/
def pong : List UInt8 :=
  [123, 34, 105, 100, 34, 58, 49, 44, 34, 111, 107, 34, 58, 116, 114, 117, 101, 125, 10]

theorem framed_pinged : Framed sampleSerde (pinged pong).done := by
  refine (framed_iff (reach_pinged pong)).2 fun c hc o ho => ?_
  obtain rfl := List.mem_singleton.1 hc
  obtain rfl := Option.some.inj ho
  intro inner hi
  obtain rfl := Option.some.inj hi
  refine ⟨rfl, fun line hl => ?_⟩
  have hline : line = "\x7b\"id\":1,\"ok\":true\x7d\n" := by
    have hread : responseLine ⟨0, 0, []⟩ (replying pong) = some "\x7b\"id\":1,\"ok\":true\x7d\n" := by
      decide
    exact Option.some.inj (hl.symm.trans hread)
  subst hline
  decide

/-- `x` and a newline -/
def garbled : List UInt8 := [120, 10]

/-- A line that is not JSON leaves the child where it is. -/
theorem not_always_framed : ¬ ∀ sd d, (machine sd).Reach .init d → Framed sd d.done := by
  intro h
  have hf := h sampleSerde (pinged garbled) (reach_pinged garbled)
  have hs := (hf.each _ (List.mem_singleton_self _)).severs _ rfl trivial
  exact absurd hs (by decide)

end Sidecar
