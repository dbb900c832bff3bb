import PwndaWallet.Desk.AcceptSound

/-!
# M2 against our own engine

What the desk says of the two lock addresses, and what our own engine derived. `m2_agreement`: a handshake
that returns a record has compared them exactly where the response names them as our engine does.
-/

namespace Desk

open Tasks

/-- The response is complete, and both lock addresses are those that our own engine derived. -/
def Agreed (m2 : KeysResponse) (joint : JointKeys) : Prop :=
  validM2 m2 = .ok () ∧ m2.chainALockAddr = joint.chainALockAddr ∧ m2.chainBJointAddr = joint.chainBJointAddr

def StoredSwap.hasLockAddr (rec : StoredSwap) : Bool := rec.chainALockAddr.isSome || rec.chainBJointAddr.isSome

/-! ## What a handshake has seen -/

structure M2Seen where
  /-- the response to `/keys` -/
  keys : Option KeysResponse
  joint : Option JointKeys
  /-- a record with a lock address is in the store -/
  addressed : Bool
  /-- the store did not take a record -/
  refused : Bool

def M2Seen.next (s : M2Seen) : (o : Op) → o.Ans → M2Seen
  | .client (.keys _ _), .ok m2 => { s with keys := some m2 }
  | .crypto (.ingestCounterparty _ _), .ok joint => { s with joint := some joint }
  | .store .dataDir, none => { s with refused := true }
  | .store (.openStore _), .error _ => { s with refused := true }
  | .store (.save _), .error _ => { s with refused := true }
  | .store (.save rec), .ok _ => { s with addressed := s.addressed || rec.hasLockAddr }
  | _, _ => s

def m2Monitor : Monitor Op Op.Ans where
  State := M2Seen
  allows _ _ := True
  next := M2Seen.next

def seen (tr : List (Ev Op.Ans)) : M2Seen := m2Monitor.after (⟨none, none, false, false⟩ : M2Seen) tr

/-- The handshake returns a record only of an agreement; where it fails, no record with a lock address is kept. -/
def M2Checked (tr : List (Ev Op.Ans)) (q : DeskM String StoredSwap) : Prop :=
  (∀ rec, q = .ret rec → ∃ m2 joint, (seen tr).keys = some m2 ∧ (seen tr).joint = some joint ∧ Agreed m2 joint) ∧
    ∀ e, q = .fail e → (seen tr).addressed = false

/-- The response names the chain-A address, and the chain-B address that our engine derived. -/
def NamesLocks (m2 : KeysResponse) (joint : JointKeys) : Prop :=
  m2.chainALockAddr ≠ "" ∧ m2.chainBJointAddr ≠ "" ∧ m2.chainBJointAddr = joint.chainBJointAddr

/-- The comparison that is made lets the two through. -/
def PassesLockA (m2 : KeysResponse) (joint : JointKeys) : Prop :=
  m2.chainALockAddr = "" ∨ m2.chainALockAddr = joint.chainALockAddr

theorem validM2_eq_ok {m2 : KeysResponse} :
    validM2 m2 = .ok () ↔ m2.accepted = true ∧ m2.chainALockAddr ≠ "" ∧ m2.chainBJointAddr ≠ "" := by
  unfold validM2
  by_cases hacc : m2.accepted = true
  · by_cases ha : m2.chainALockAddr = ""
    · simp [hacc, ha, Rust.isEmpty]
    · by_cases hb : m2.chainBJointAddr = ""
      · simp [hacc, ha, hb, Rust.isEmpty]
      · simp [hacc, ha, hb, Rust.isEmpty]
  · simp [hacc]

theorem agreed_iff {m2 : KeysResponse} {joint : JointKeys} (hacc : m2.accepted = true) (ha : PassesLockA m2 joint) :
    Agreed m2 joint ↔ NamesLocks m2 joint := by
  unfold Agreed NamesLocks
  rw [validM2_eq_ok]
  constructor
  · rintro ⟨⟨_, hne, hne'⟩, _, hb⟩
    exact ⟨hne, hne', hb⟩
  · rintro ⟨hne, hne', hb⟩
    exact ⟨⟨hacc, hne, hne'⟩, ha.resolve_left hne, hb⟩

/-! ## One run -/

/-- What a failed handshake leaves. -/
def FailsClean (s : M2Seen) : Prop :=
  s.addressed = false ∧ (s.keys = none ∨ s.joint = none ∨ s.refused = true ∨
    ∃ m2 joint, s.keys = some m2 ∧ s.joint = some joint ∧ ¬ PassesLockA m2 joint)

/-- What a handshake that returns a record has seen. -/
def ReturnsChecked (s : M2Seen) : Prop :=
  s.refused = false ∧ ∃ m2 joint, s.keys = some m2 ∧ s.joint = some joint ∧ m2.accepted = true ∧ PassesLockA m2 joint

abbrev Compares {α : Type} (p : DeskM String α) (P : α → M2Seen → Prop) (s : M2Seen) : Prop :=
  Admits m2Monitor p (OnEnd FailsClean P) s

variable {keys : Option KeysResponse} {joint : Option JointKeys}

theorem failsClean_refused : FailsClean ⟨keys, joint, false, true⟩ := ⟨rfl, .inr (.inr (.inl rfl))⟩

theorem failsClean_open (hn : keys = none ∨ joint = none) : FailsClean ⟨keys, joint, false, false⟩ := by
  rcases hn with rfl | rfl
  · exact ⟨rfl, .inl rfl⟩
  · exact ⟨rfl, .inr (.inl rfl)⟩

theorem compares_openStore {s : M2Seen} (hs : s = ⟨keys, joint, false, false⟩) :
    Compares openStore (fun _ s' => s' = s) s := by
  subst hs
  refine admits_ask trivial fun dir => ?_
  cases dir with
  | none => exact safe_fail.2 failsClean_refused
  | some dir =>
    refine Safe.mapErr_end (admits_request trivial fun r => ?_)
    cases r with
    | ok _ => exact rfl
    | error e => exact failsClean_refused

theorem compares_cfgDelta {role : ClientRole} {m1 : AcceptResponse} {s : M2Seen} :
    Compares (cfgDelta role m1) (fun _ s' => s' = s) s := by
  refine Safe.ite (fun _ => admits_attempt trivial fun r => ?_) fun _ => safe_ret.2 rfl
  cases r <;> exact safe_ret.2 rfl

theorem hasLockAddr_acceptRecord (role : ClientRole) (m1 : AcceptResponse) (material : SwapKeyMaterial)
    (delta : Option Int) (payout refund : String) (now : Int) :
    (acceptRecord role m1 material delta payout refund now).hasLockAddr = false := by
  unfold acceptRecord
  dsimp only
  split <;> split <;> rfl

theorem compares_acceptAndPersist (quoteId pair direction payout refund : String) :
    Compares (acceptAndPersist quoteId pair direction payout refund) (fun _ s => ReturnsChecked s)
      ⟨none, none, false, false⟩ := by
  have hfails : FailsClean ⟨none, none, false, false⟩ := failsClean_open (.inl rfl)
  unfold acceptAndPersist
  simp only [Prog.bind_eq, Prog.pure_eq]
  refine Safe.ofExcept_bind (fun _ _ => hfails) fun role _ => ?_
  refine admits_try trivial (fun r x hr => ?_) fun r m1 hr => ?_
  · cases hr
    exact hfails
  cases hr
  refine Safe.ensure_bind (fun _ => hfails) fun _ => Safe.ofExcept_bind (fun _ _ => hfails) fun _ _ => ?_
  refine admits_try trivial (fun r x hr => ?_) fun r material hr => ?_
  · cases hr
    exact hfails
  cases hr
  refine admits_ask trivial fun now => Safe.bind_end compares_cfgDelta fun delta s hs => ?_
  subst hs
  refine Safe.bind_end (compares_openStore rfl) fun _ s hs => ?_
  subst hs
  have hrec := hasLockAddr_acceptRecord role m1 material delta payout refund (Rust.wrapI64 now)
  have hsaved : M2Seen.next ⟨none, none, false, false⟩
      (.store (.save (acceptRecord role m1 material delta payout refund (Rust.wrapI64 now)))) (.ok ()) =
      ⟨none, none, false, false⟩ := by
    simp [M2Seen.next, hrec]
  refine admits_try trivial (fun r x hr => ?_) fun r _ hr => ?_
  · cases hr
    exact failsClean_refused
  cases hr
  generalize hs : m2Monitor.next _ _ _ = s
  obtain rfl : s = ⟨none, none, false, false⟩ := hs.symm.trans hsaved
  refine admits_try trivial (fun r x hr => ?_) fun r m2 hr => ?_
  · cases hr
    exact hfails
  cases hr
  refine Safe.ensure_bind (fun _ => failsClean_open (.inr rfl)) fun hacc => ?_
  refine admits_try trivial (fun r x hr => ?_) fun r joint hr => ?_
  · cases hr
    exact failsClean_open (.inr rfl)
  cases hr
  refine Safe.ensure_bind (fun hne => ⟨rfl, .inr (.inr (.inr ⟨m2, joint, rfl, rfl, fun hpass => ?_⟩))⟩) fun heq => ?_
  · rcases hpass with hpass | hpass <;> simp [Rust.isEmpty, hpass] at hne
  have hpass : PassesLockA m2 joint := by simpa [Rust.isEmpty, PassesLockA] using heq
  refine Safe.bind_end (compares_openStore rfl) fun _ s hs => ?_
  subst hs
  refine admits_try trivial (fun r x hr => ?_) fun r _ hr => ?_
  · cases hr
    exact failsClean_refused
  · cases hr
    exact safe_ret.2 ⟨rfl, m2, joint, rfl, rfl, hacc, hpass⟩

/-- A handshake that ends has made sure of both addresses exactly where the response names them as our own engine
does, or does not get as far as that. -/
theorem m2_agreement {quoteId pair direction payout refund : String} {tr : List (Ev Op.Ans)}
    {q : DeskM String StoredSwap} (run : (acceptAndPersist quoteId pair direction payout refund).Run tr q)
    (hend : (∃ rec, q = .ret rec) ∨ ∃ e, q = .fail e) :
    M2Checked tr q ↔ ∀ m2 joint, (seen tr).keys = some m2 → (seen tr).joint = some joint → PassesLockA m2 joint →
      (seen tr).refused = false → NamesLocks m2 joint := by
  have hq := admits_of_run (compares_acceptAndPersist quoteId pair direction payout refund) run
  rcases hend with ⟨rec, rfl⟩ | ⟨e, rfl⟩
  · obtain ⟨hrefused, m2, joint, hkeys, hjoint, hacc, hpass⟩ : ReturnsChecked (seen tr) := safe_ret.1 hq
    constructor
    · rintro ⟨hret, _⟩ m2' joint' hkeys' hjoint' _ _
      obtain ⟨m2'', joint'', hkeys'', hjoint'', hagreed⟩ := hret rec rfl
      rw [hkeys''] at hkeys hkeys'
      rw [hjoint''] at hjoint hjoint'
      cases hkeys
      cases hkeys'
      cases hjoint
      cases hjoint'
      exact (agreed_iff hacc hpass).1 hagreed
    · refine fun hnames => ⟨fun _ _ => ⟨m2, joint, hkeys, hjoint, ?_⟩, nofun⟩
      exact (agreed_iff hacc hpass).2 (hnames m2 joint hkeys hjoint hpass hrefused)
  · obtain ⟨haddressed, hopen⟩ : FailsClean (seen tr) := safe_fail.1 hq
    refine iff_of_true ⟨fun _ h => (by cases h), fun _ _ => haddressed⟩ fun m2 joint hkeys hjoint hpass hrefused => ?_
    rcases hopen with h | h | h | ⟨m2', joint', h, h', hno⟩
    · cases h.symm.trans hkeys
    · cases h.symm.trans hjoint
    · cases h.symm.trans hrefused
    · cases h.symm.trans hkeys
      cases h'.symm.trans hjoint
      exact absurd hpass hno

/-! ## A desk that names both addresses, and one that names neither -/

def bothNamed : KeysResponse :=
  { (default : KeysResponse) with chainALockAddr := "addr1", chainBJointAddr := "4A", accepted := true }

def jointSample : JointKeys := { chainALockAddr := "addr1", chainBJointKey := "cc", chainBJointAddr := "4A" }

def m2Ans (m2 : KeysResponse) (_ : Nat) : (o : Op) → o.Ans
  | .client (.accept _) => .ok deskLeads
  | .client (.keys _ _) => .ok m2
  | .crypto (.ingestCounterparty _ _) => .ok jointSample
  | o => o.easyAns

/-- The whole handshake of a sale, with `m2` for M2. -/
def m2Trace (m2 : KeysResponse) : List (Ev Op.Ans) := Prog.fed (m2Ans m2) sale 11

theorem m2_agreement_bothNamed :
    M2Checked (m2Trace bothNamed) (.ret ((saleRecord deskLeads).setJoint jointSample)) := by
  refine (m2_agreement (Prog.run_feed (m2Ans bothNamed) sale 11) (.inl ⟨_, rfl⟩)).2 ?_
  rintro _ _ ⟨⟩ ⟨⟩ _ _
  exact ⟨by decide, by decide, rfl⟩

/-- A response that is accepted and names neither address is let through. -/
theorem not_always_compared : ¬ ∀ (quoteId pair direction payout refund : String) (tr : List (Ev Op.Ans))
    (q : DeskM String StoredSwap), (acceptAndPersist quoteId pair direction payout refund).Run tr q →
    M2Checked tr q := by
  intro h
  obtain ⟨hret, _⟩ := h _ _ _ _ _ _ _ (Prog.run_feed (m2Ans { (default : KeysResponse) with accepted := true }) sale 11)
  obtain ⟨m2, joint, hkeys, hjoint, hvalid, _⟩ := hret ((saleRecord deskLeads).setJoint jointSample) rfl
  cases hkeys
  exact absurd rfl (validM2_eq_ok.1 hvalid).2.1

end Desk
